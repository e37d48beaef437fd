import LoadCoach.Foundations.Table
import LoadCoach.Foundations.Text
import LoadCoach.Foundations.Transition
import LoadCoach.Values

/-! # API tokens

`services/tokens.py` mints and revokes tokens.  A table keeps the digest of each and is never pruned;
a name is free again once its token is revoked, not when it expires.

The rows in use are the tokens that were issued and not revoked since (`standing_iff`), so names are
never ambiguous (`revokeToken_eq_ok_iff`) and what was minted once is not minted again
(`createToken_eq_ok_iff`). -/

namespace LoadCoach.Web

open Foundations

/-! ### The table -/

/-- `ApiToken`. -/
structure ApiToken where
  id : String
  name : String
  tokenSha256 : String
  scope : String
  createdAt : Instant
  lastUsedAt : Option Instant := none
  expiresAt : Option Instant := none
  revokedAt : Option Instant := none
deriving DecidableEq

/-- `TokenRecord`: a row without its digest. -/
structure TokenRecord where
  tokenId : String
  name : String
  scope : String
  createdAt : Instant
  expiresAt : Option Instant
  revokedAt : Option Instant
  lastUsedAt : Option Instant
deriving DecidableEq

/-- `_record`. -/
def ApiToken.record (row : ApiToken) : TokenRecord where
  tokenId := row.id
  name := row.name
  scope := row.scope
  createdAt := row.createdAt
  expiresAt := row.expiresAt
  revokedAt := row.revokedAt
  lastUsedAt := row.lastUsedAt

/-- `IssuedToken`: the record, and the secret that is shown once. -/
structure IssuedToken where
  record : TokenRecord
  token : String

/-- The rows a name stands for while it is in use. -/
def named (name : String) (rows : List ApiToken) : List ApiToken :=
  rows.filter fun row => row.name == name && row.revokedAt.isNone

/-- `Result.scalar_one_or_none`: several rows are `MultipleResultsFound`. -/
def scalarOneOrNone {α : Type} : List α → Except Raised (Option α)
  | [] => .ok none
  | [a] => .ok (some a)
  | _ => .error .unexpected

/-! ### Minting and revoking -/

/-- `SCOPES` of `services/tokens.py`. -/
def tokenScopes : List String := ["read", "write", "admin"]

/-- A `ValidationError` about one field. -/
def fieldProblem (message path problem : String) : Raised :=
  .suite "VALIDATION_ERROR" message
    [("fields", .arr [.obj [("path", .str path), ("problem", .str problem)]])]

/-- `TokenNotFound`. -/
def tokenNotFound (repr : String → String) (name : String) : Raised :=
  let quoted := repr name
  .suite "TOKEN_NOT_FOUND" s!"No active token named {quoted}." [("name", .str name)]

/-- `now + timedelta(days=…)`, which a `timedelta` or a `datetime` may be too small for. -/
def addDays (now : Instant) (days : ℤ) : Except Raised Instant :=
  let later := now + days * 86400000000
  if days.natAbs ≤ 999999999 ∧ -62135596800000000 ≤ later ∧ later ≤ 253402300799999999 then
    .ok later
  else .error .unexpected

/-- When a token expires. -/
def expiryOf (now : Instant) : Option ℤ → Except Raised (Option Instant)
  | none => .ok none
  | some days => (addDays now days).map some

/-- Adding a row: the table has two unique columns. -/
def insertToken (rows : List ApiToken) (row : ApiToken) : Except Raised ApiToken :=
  if ∃ r ∈ rows, r.id = row.id ∨ r.tokenSha256 = row.tokenSha256 then .error .integrityError
  else .ok row

section Minting

variable (sha256 repr : String → String)

/-- The row that `create_token` adds, with the primary key and the secret it draws. -/
def createRow (rows : List ApiToken) (id secret name scope : String) (expiresDays : Option ℤ)
    (now : Instant) : Except Raised ApiToken :=
  let cleaned := strip name
  if cleaned = "" ∨ 64 < cleaned.length then
    .error (fieldProblem "A token needs a name of 1–64 characters." "name"
      "1–64 characters, not blank")
  else if scope ∉ tokenScopes then
    let listed := ", ".intercalate tokenScopes
    .error (fieldProblem s!"Scope must be one of {listed}." "scope" "unknown scope")
  else do
    match ← scalarOneOrNone (named cleaned rows) with
    | some _ =>
        let quoted := repr cleaned
        throw (fieldProblem s!"An active token named {quoted} already exists; revoke it first."
          "name" "already in use")
    | none =>
        let expiresAt ← expiryOf now expiresDays
        insertToken rows { id, name := cleaned, tokenSha256 := sha256 secret, scope,
                           createdAt := now, expiresAt }

/-- `create_token`. -/
def createToken (rows : List ApiToken) (id secret name scope : String) (expiresDays : Option ℤ)
    (now : Instant) : Except Raised (List ApiToken × IssuedToken) :=
  (createRow sha256 repr rows id secret name scope expiresDays now).map fun row =>
    (rows ++ [row], ⟨row.record, secret⟩)

/-- `row.revoked_at = now`, of the row of a primary key. -/
def stampRevoked (id : String) (now : Instant) (rows : List ApiToken) : List ApiToken :=
  rows.map fun row => if row.id = id then { row with revokedAt := some now } else row

/-- `revoke_token`: the name is taken as it is. -/
def revokeToken (rows : List ApiToken) (name : String) (now : Instant) :
    Except Raised (List ApiToken × TokenRecord) := do
  match ← scalarOneOrNone (named name rows) with
  | none => throw (tokenNotFound repr name)
  | some row =>
      return (stampRevoked row.id now rows, { row with revokedAt := some now : ApiToken }.record)

/-- What an operator does to the table. -/
inductive TokenAct where
  | create (id secret name scope : String) (expiresDays : Option ℤ) (now : Instant)
  | revoke (name : String) (now : Instant)

/-- The table after an action: one that raises is rolled back. -/
def afterToken (rows : List ApiToken) : TokenAct → List ApiToken
  | .create id secret name scope expiresDays now =>
      match createToken sha256 repr rows id secret name scope expiresDays now with
      | .ok (rows', _) => rows'
      | .error _ => rows
  | .revoke name now =>
      match revokeToken repr rows name now with
      | .ok (rows', _) => rows'
      | .error _ => rows

/-- Actions in any order and at any instants, from an empty table on. -/
def tokenSystem : System (List ApiToken) TokenAct where
  init := {[]}
  next rows a rows' := rows' = afterToken sha256 repr rows a

/-- The row that a step added to the table. -/
def issued (e : Step (List ApiToken) TokenAct) : Option ApiToken :=
  match e.act with
  | .create id secret name scope expiresDays now =>
      (createRow sha256 repr e.pre id secret name scope expiresDays now).toOption
  | .revoke _ _ => none

/-- A token that was issued, and whose name nobody asked to revoke since. -/
def Standing (h : List (Step (List ApiToken) TokenAct)) (row : ApiToken) : Prop :=
  ∃ h₁ e h₂, h = h₁ ++ e :: h₂ ∧ issued sha256 repr e = some row ∧
    ∀ e' ∈ h₁, ∀ now, e'.act ≠ .revoke row.name now

end Minting

/-! ### What minting and revoking do -/

/-- What holds of the table: the unique columns, and no name in use twice. -/
structure Sound (rows : List ApiToken) : Prop where
  ids : (rows.map (·.id)).Nodup
  digests : (rows.map (·.tokenSha256)).Nodup
  names : ∀ name, (named name rows).length ≤ 1

theorem mem_named {name : String} {rows : List ApiToken} {row : ApiToken} :
    row ∈ named name rows ↔ row ∈ rows ∧ row.name = name ∧ row.revokedAt = none := by
  simp [named]

theorem named_append (name : String) (rows rows' : List ApiToken) :
    named name (rows ++ rows') = named name rows ++ named name rows' := by
  simp [named]

theorem scalarOneOrNone_eq {α : Type} {l : List α} (h : l.length ≤ 1) :
    scalarOneOrNone l = .ok l.head? := by
  match l, h with
  | [], _ => rfl
  | [a], _ => rfl

namespace Sound

variable {rows : List ApiToken} {name : String}

theorem lookup (hsound : Sound rows) (name : String) :
    scalarOneOrNone (named name rows) = .ok (named name rows).head? :=
  scalarOneOrNone_eq (hsound.names name)

theorem named_eq_singleton (hsound : Sound rows) {row : ApiToken} (hrow : row ∈ named name rows) :
    named name rows = [row] := by
  have hlength := hsound.names name
  match hnamed : named name rows, hrow, hlength with
  | [row'], hrow, _ => rw [List.mem_singleton.1 hrow]

theorem eq_of_id (hsound : Sound rows) {r r' : ApiToken} (hr : r ∈ rows) (hr' : r' ∈ rows)
    (hid : r.id = r'.id) : r = r' :=
  List.inj_on_of_nodup_map hsound.ids hr hr' hid

theorem eq_of_digest (hsound : Sound rows) {r r' : ApiToken} (hr : r ∈ rows) (hr' : r' ∈ rows)
    (hdigest : r.tokenSha256 = r'.tokenSha256) : r = r' :=
  List.inj_on_of_nodup_map hsound.digests hr hr' hdigest

end Sound

section Steps

variable {sha256 repr : String → String} {rows rows' : List ApiToken}
  {id secret name scope : String} {expiresDays : Option ℤ} {now : Instant} {row : ApiToken}

theorem insertToken_eq_ok_iff {row row' : ApiToken} :
    insertToken rows row = .ok row' ↔
      (∀ r ∈ rows, r.id ≠ row.id ∧ r.tokenSha256 ≠ row.tokenSha256) ∧ row' = row := by
  by_cases htaken : ∃ r ∈ rows, r.id = row.id ∨ r.tokenSha256 = row.tokenSha256
  · have hnot : ¬ ∀ r ∈ rows, r.id ≠ row.id ∧ r.tokenSha256 ≠ row.tokenSha256 := by
      obtain ⟨r, hr, htaken⟩ := htaken
      intro hfree
      exact htaken.elim (hfree r hr).1 (hfree r hr).2
    simp [insertToken, htaken, hnot]
  · have hfree : ∀ r ∈ rows, r.id ≠ row.id ∧ r.tokenSha256 ≠ row.tokenSha256 := by
      intro r hr
      exact not_or.1 fun h => htaken ⟨r, hr, h⟩
    rw [insertToken, if_neg htaken, and_iff_right hfree, Except.ok.injEq]
    exact eq_comm

/-- **What `create_token` does**: it adds one row, of a name, a scope and an expiry that are sound
and of a name, a primary key and a digest that are not taken. -/
theorem createRow_eq_ok_iff (hsound : Sound rows) :
    createRow sha256 repr rows id secret name scope expiresDays now = .ok row ↔
      (strip name ≠ "" ∧ (strip name).length ≤ 64) ∧ scope ∈ tokenScopes ∧
        named (strip name) rows = [] ∧
        (∀ r ∈ rows, r.id ≠ id ∧ r.tokenSha256 ≠ sha256 secret) ∧
        ∃ expiresAt, expiryOf now expiresDays = .ok expiresAt ∧
          row = { id, name := strip name, tokenSha256 := sha256 secret, scope, createdAt := now,
                  expiresAt } := by
  simp only [createRow, hsound.lookup, ok_bind]
  by_cases hname : strip name = "" ∨ 64 < (strip name).length
  · have hnot : ¬ (strip name ≠ "" ∧ (strip name).length ≤ 64) := by
      rintro ⟨hblank, hlong⟩
      rcases hname with hname | hname
      · exact hblank hname
      · omega
    simp [hname, hnot]
  · have hok : strip name ≠ "" ∧ (strip name).length ≤ 64 := by
      rw [not_or] at hname
      exact ⟨hname.1, by omega⟩
    rw [if_neg hname]
    by_cases hscope : scope ∈ tokenScopes
    · cases hnamed : named (strip name) rows with
      | cons r rs => simp [hscope, hok]
      | nil =>
          rw [if_neg (not_not.2 hscope)]
          simp only [List.head?_nil, bind_eq_ok, insertToken_eq_ok_iff]
          constructor
          · rintro ⟨expiresAt, hexpiry, hfresh, hrow⟩
            exact ⟨hok, hscope, trivial, hfresh, expiresAt, hexpiry, hrow⟩
          · rintro ⟨-, -, -, hfresh, expiresAt, hexpiry, hrow⟩
            exact ⟨expiresAt, hexpiry, hfresh, hrow⟩
    · simp [hscope]

/-- **What `revoke_token` does**: it stamps the one row the name stands for. -/
theorem revokeToken_of_named (hsound : Sound rows) (hrow : row ∈ named name rows) :
    revokeToken repr rows name now =
      .ok (stampRevoked row.id now rows, { row with revokedAt := some now : ApiToken }.record) := by
  rw [revokeToken, hsound.lookup, hsound.named_eq_singleton hrow]
  rfl

theorem revokeToken_of_unnamed (hnone : named name rows = []) :
    revokeToken repr rows name now = .error (tokenNotFound repr name) := by
  rw [revokeToken, hnone]
  rfl

theorem mem_stampRevoked {rows : List ApiToken} {id : String} {now : Instant} {row : ApiToken} :
    row ∈ stampRevoked id now rows ↔
      (row ∈ rows ∧ row.id ≠ id) ∨
        ∃ r ∈ rows, r.id = id ∧ row = { r with revokedAt := some now } := by
  simp only [stampRevoked, List.mem_map]
  constructor
  · rintro ⟨r, hr, rfl⟩
    by_cases hid : r.id = id
    · exact .inr ⟨r, hr, hid, by rw [if_pos hid]⟩
    · rw [if_neg hid]
      exact .inl ⟨hr, hid⟩
  · rintro (⟨hrow, hid⟩ | ⟨r, hr, hid, rfl⟩)
    · exact ⟨row, hrow, if_neg hid⟩
    · exact ⟨r, hr, if_pos hid⟩

theorem named_stampRevoked (name id : String) (now : Instant) (rows : List ApiToken) :
    named name (stampRevoked id now rows) = (named name rows).filter fun row => row.id != id := by
  induction rows with
  | nil => rfl
  | cons r rows ih =>
      rw [named, stampRevoked] at ih ⊢
      by_cases hid : r.id = id <;> by_cases hname : r.name = name <;>
        cases hrevoked : r.revokedAt <;>
        simp [named, hid, hname, hrevoked, ih]

/-! ### Every table that is reached -/

theorem Sound.nil : Sound [] := ⟨by simp, by simp, by simp [named]⟩

theorem Sound.append (hsound : Sound rows)
    (hrow : createRow sha256 repr rows id secret name scope expiresDays now = .ok row) :
    Sound (rows ++ [row]) := by
  obtain ⟨-, -, hfree, hfresh, expiresAt, -, rfl⟩ := (createRow_eq_ok_iff hsound).1 hrow
  refine ⟨?_, ?_, ?_⟩
  · rw [List.map_append, List.nodup_append]
    refine ⟨hsound.ids, by simp, ?_⟩
    intro i hi j hj
    obtain ⟨r, hr, rfl⟩ := List.mem_map.1 hi
    rw [List.mem_singleton.1 hj]
    exact (hfresh r hr).1
  · rw [List.map_append, List.nodup_append]
    refine ⟨hsound.digests, by simp, ?_⟩
    intro i hi j hj
    obtain ⟨r, hr, rfl⟩ := List.mem_map.1 hi
    rw [List.mem_singleton.1 hj]
    exact (hfresh r hr).2
  · intro other
    rw [named_append]
    by_cases hother : strip name = other
    · subst hother
      rw [hfree, List.nil_append]
      exact List.length_filter_le _ _
    · have hnone : named other [{ id, name := strip name, tokenSha256 := sha256 secret, scope,
                                  createdAt := now, expiresAt }] = [] := by
        simp [named, hother]
      rw [hnone, List.append_nil]
      exact hsound.names other

theorem Sound.stampRevoked (hsound : Sound rows) (id : String) (now : Instant) :
    Sound (stampRevoked id now rows) := by
  have hsame : ∀ f : ApiToken → String, (∀ r : ApiToken, ∀ t, f { r with revokedAt := t } = f r) →
      (Web.stampRevoked id now rows).map f = rows.map f := by
    intro f hf
    rw [Web.stampRevoked, List.map_map]
    refine List.map_congr_left fun r _ => ?_
    simp only [Function.comp_apply]
    split
    · exact hf r _
    · rfl
  refine ⟨?_, ?_, ?_⟩
  · rw [hsame (·.id) fun _ _ => rfl]
    exact hsound.ids
  · rw [hsame (·.tokenSha256) fun _ _ => rfl]
    exact hsound.digests
  · intro name
    rw [named_stampRevoked]
    exact (List.length_filter_le _ _).trans (hsound.names name)

/-- **One action**: it changes nothing, it adds the row it issues, or it stamps the row that a name
stands for. -/
theorem afterToken_cases (sha256 repr : String → String) (hsound : Sound rows) (a : TokenAct)
    (rows' : List ApiToken) :
    (afterToken sha256 repr rows a = rows ∧ issued sha256 repr ⟨rows, a, rows'⟩ = none ∧
      ∀ name now, a = .revoke name now → named name rows = []) ∨
    (∃ id secret name scope expiresDays now row,
      a = .create id secret name scope expiresDays now ∧
      createRow sha256 repr rows id secret name scope expiresDays now = .ok row ∧
      afterToken sha256 repr rows a = rows ++ [row] ∧
      issued sha256 repr ⟨rows, a, rows'⟩ = some row) ∨
    (∃ name now row, a = .revoke name now ∧ row ∈ named name rows ∧
      afterToken sha256 repr rows a = stampRevoked row.id now rows ∧
      issued sha256 repr ⟨rows, a, rows'⟩ = none) := by
  cases a with
  | create id secret name scope expiresDays now =>
      cases hrow : createRow sha256 repr rows id secret name scope expiresDays now with
      | error e =>
          refine .inl ⟨?_, ?_, by simp⟩
          · simp [afterToken, createToken, hrow, Except.map]
          · simp [issued, hrow, Except.toOption]
      | ok row =>
          refine .inr (.inl ⟨id, secret, name, scope, expiresDays, now, row, rfl, hrow, ?_, ?_⟩)
          · simp [afterToken, createToken, hrow, Except.map]
          · simp [issued, hrow, Except.toOption]
  | revoke name now =>
      cases hnamed : named name rows with
      | nil =>
          refine .inl ⟨?_, rfl, ?_⟩
          · rw [afterToken, revokeToken_of_unnamed hnamed]
          · intro name' now' h
            cases h
            exact hnamed
      | cons row rest =>
          have hrow : row ∈ named name rows := by
            rw [hnamed]
            exact List.mem_cons_self
          refine .inr (.inr ⟨name, now, row, rfl, hrow, ?_, rfl⟩)
          rw [afterToken, revokeToken_of_named hsound hrow]

theorem Sound.after (hsound : Sound rows) (a : TokenAct) :
    Sound (afterToken sha256 repr rows a) := by
  rcases afterToken_cases sha256 repr hsound a rows with
    ⟨hsame, -, -⟩ | ⟨_, _, _, _, _, _, row, -, hrow, hafter, -⟩ | ⟨_, now, row, -, -, hafter, -⟩
  · rw [hsame]
    exact hsound
  · rw [hafter]
    exact hsound.append hrow
  · rw [hafter]
    exact hsound.stampRevoked row.id now

end Steps

section Runs

variable {sha256 repr : String → String} {h : List (Step (List ApiToken) TokenAct)}
  {rows : List ApiToken} {row : ApiToken} {name : String} {now : Instant}

theorem sound_of_run (hrun : Run (tokenSystem sha256 repr) h rows) : Sound rows := by
  refine hrun.invariant (P := Sound) ?_ ?_
  · rintro _ rfl
    exact Sound.nil
  · rintro rows a _ rfl hsound
    exact hsound.after a

theorem standing_cons {e : Step (List ApiToken) TokenAct} :
    Standing sha256 repr (e :: h) row ↔
      issued sha256 repr e = some row ∨
        (Standing sha256 repr h row ∧ ∀ now, e.act ≠ .revoke row.name now) := by
  constructor
  · rintro ⟨h₁, e', h₂, heq, hissued, hkept⟩
    cases h₁ with
    | nil =>
        obtain ⟨rfl, rfl⟩ := List.cons.inj heq
        exact .inl hissued
    | cons e₁ h₁ =>
        obtain ⟨rfl, rfl⟩ := List.cons.inj heq
        refine .inr ⟨⟨h₁, e', h₂, rfl, hissued, ?_⟩, hkept e List.mem_cons_self⟩
        exact fun e'' he'' => hkept e'' (List.mem_cons_of_mem e he'')
  · rintro (hissued | ⟨⟨h₁, e', h₂, rfl, hissued, hkept⟩, hlast⟩)
    · exact ⟨[], e, h, rfl, hissued, by simp⟩
    · refine ⟨e :: h₁, e', h₂, rfl, hissued, ?_⟩
      intro e'' he''
      rcases List.mem_cons.1 he'' with rfl | he''
      · exact hlast
      · exact hkept e'' he''

/-- **The rows in use are the tokens that stand.** -/
theorem standing_iff (hrun : Run (tokenSystem sha256 repr) h rows) (row : ApiToken) :
    Standing sha256 repr h row ↔ row ∈ rows ∧ row.revokedAt = none := by
  induction hrun with
  | start hs =>
      have hempty : _ = [] := hs
      subst hempty
      simp [Standing]
  | @step h rows rows' a hpast hnext ih =>
      have hsound := sound_of_run hpast
      have hafter : rows' = afterToken sha256 repr rows a := hnext
      rw [standing_cons, ih]
      rcases afterToken_cases sha256 repr hsound a rows' with
        ⟨hsame, hissued, hunused⟩ |
        ⟨_, _, _, _, _, _, new, rfl, hnew, hadded, hissued⟩ |
        ⟨name, now, old, rfl, hold, hstamped, hissued⟩
      · rw [hissued, hafter, hsame]
        simp only [reduceCtorEq, false_or]
        refine and_iff_left_of_imp ?_
        rintro ⟨hmem, hrevoked⟩ now rfl
        have hnamed : row ∈ named row.name rows := mem_named.2 ⟨hmem, rfl, hrevoked⟩
        rw [hunused row.name now rfl] at hnamed
        cases hnamed
      · obtain ⟨-, -, -, -, expiresAt, -, hrow⟩ := (createRow_eq_ok_iff hsound).1 hnew
        have hnever : new.revokedAt = none := by rw [hrow]
        rw [hissued, hafter, hadded, List.mem_append, List.mem_singleton, Option.some.injEq]
        constructor
        · rintro (rfl | ⟨hin, -⟩)
          · exact ⟨.inr rfl, hnever⟩
          · exact ⟨.inl hin.1, hin.2⟩
        · rintro ⟨hin | rfl, hrevoked⟩
          · exact .inr ⟨⟨hin, hrevoked⟩, by simp⟩
          · exact .inl rfl
      · rw [hissued, hafter, hstamped, mem_stampRevoked]
        obtain ⟨holdmem, holdname, holdrevoked⟩ := mem_named.1 hold
        simp only [reduceCtorEq, false_or]
        constructor
        · rintro ⟨⟨hin, hrevoked⟩, hother⟩
          refine ⟨.inl ⟨hin, ?_⟩, hrevoked⟩
          intro hid
          rw [hsound.eq_of_id hin holdmem hid, holdname] at hother
          exact hother now rfl
        · rintro ⟨⟨hin, hid⟩ | ⟨r, -, -, rfl⟩, hrevoked⟩
          · refine ⟨⟨hin, hrevoked⟩, ?_⟩
            intro now' hact
            have hname : row.name = name := by
              cases hact
              rfl
            have hrow : row ∈ named name rows := mem_named.2 ⟨hin, hname, hrevoked⟩
            rw [hsound.named_eq_singleton hold, List.mem_singleton] at hrow
            exact hid (congrArg _ hrow)
          · cases hrevoked

theorem named_eq_nil_iff (hrun : Run (tokenSystem sha256 repr) h rows) :
    named name rows = [] ↔ ∀ row, Standing sha256 repr h row → row.name ≠ name := by
  rw [List.eq_nil_iff_forall_not_mem]
  refine forall_congr' fun row => ?_
  rw [mem_named, standing_iff hrun]
  tauto

/-- What no action changes of a row: its key, its name and its digest; and once it is stamped, it
stays so. -/
theorem exists_after (sha256 repr : String → String) (hsound : Sound rows) (a : TokenAct)
    {r : ApiToken} (hr : r ∈ rows) :
    ∃ r' ∈ afterToken sha256 repr rows a, r'.id = r.id ∧ r'.name = r.name ∧
      r'.tokenSha256 = r.tokenSha256 ∧ (r.revokedAt ≠ none → r'.revokedAt ≠ none) ∧
      ∀ now, a = .revoke r.name now → r'.revokedAt ≠ none := by
  rcases afterToken_cases sha256 repr hsound a rows with
    ⟨hsame, -, hunused⟩ | ⟨_, _, _, _, _, _, new, rfl, -, hadded, -⟩ |
    ⟨name, now, old, rfl, hold, hstamped, -⟩
  · refine ⟨r, by rwa [hsame], rfl, rfl, rfl, id, ?_⟩
    intro now hact hunrevoked
    have hnamed : r ∈ named r.name rows := mem_named.2 ⟨hr, rfl, hunrevoked⟩
    rw [hunused r.name now hact] at hnamed
    cases hnamed
  · rw [hadded]
    exact ⟨r, List.mem_append_left _ hr, rfl, rfl, rfl, id, by simp⟩
  · rw [hstamped]
    by_cases hid : r.id = old.id
    · refine ⟨{ r with revokedAt := some now }, mem_stampRevoked.2 (.inr ⟨r, hr, hid, rfl⟩), rfl,
        rfl, rfl, by simp, by simp⟩
    · refine ⟨r, mem_stampRevoked.2 (.inl ⟨hr, hid⟩), rfl, rfl, rfl, id, ?_⟩
      intro now' hact hunrevoked
      have hname : r.name = name := by
        cases hact
        rfl
      have hnamed : r ∈ named name rows := mem_named.2 ⟨hr, hname, hunrevoked⟩
      rw [hsound.named_eq_singleton hold, List.mem_singleton] at hnamed
      exact hid (congrArg _ hnamed)

/-- **A table is never pruned**: the rows are the ones that were issued, as far as their keys, their
names and their digests go. -/
theorem exists_row_iff (hrun : Run (tokenSystem sha256 repr) h rows) (id name digest : String) :
    (∃ r ∈ rows, r.id = id ∧ r.name = name ∧ r.tokenSha256 = digest) ↔
      ∃ e ∈ h, ∃ row, issued sha256 repr e = some row ∧ row.id = id ∧ row.name = name ∧
        row.tokenSha256 = digest := by
  induction hrun with
  | start hs =>
      have hempty : _ = [] := hs
      subst hempty
      simp
  | @step h rows rows' a hpast hnext ih =>
      have hsound := sound_of_run hpast
      have hafter : rows' = afterToken sha256 repr rows a := hnext
      have hkeep : (∃ r ∈ rows, r.id = id ∧ r.name = name ∧ r.tokenSha256 = digest) →
          ∃ r ∈ rows', r.id = id ∧ r.name = name ∧ r.tokenSha256 = digest := by
        rintro ⟨r, hr, rfl, rfl, rfl⟩
        obtain ⟨r', hr', hid, hname, hdigest, -⟩ := exists_after sha256 repr hsound a hr
        exact ⟨r', by rwa [hafter], hid, hname, hdigest⟩
      simp only [List.mem_cons, exists_eq_or_imp]
      rw [← ih]
      rcases afterToken_cases sha256 repr hsound a rows' with
        ⟨hsame, hissued, -⟩ | ⟨_, _, _, _, _, _, new, -, -, hadded, hissued⟩ |
        ⟨_, now, old, -, -, hstamped, hissued⟩
      · simp only [hissued, reduceCtorEq, false_and, exists_false, false_or]
        rw [hafter, hsame]
      · simp only [hissued, Option.some.injEq, exists_eq_left']
        constructor
        · rintro ⟨r, hr, hall⟩
          rw [hafter, hadded, List.mem_append, List.mem_singleton] at hr
          rcases hr with hr | rfl
          · exact .inr ⟨r, hr, hall⟩
          · exact .inl hall
        · rintro (hall | hold)
          · refine ⟨new, ?_, hall⟩
            rw [hafter, hadded]
            exact List.mem_append_right _ (List.mem_singleton_self new)
          · exact hkeep hold
      · simp only [hissued, reduceCtorEq, false_and, exists_false, false_or]
        refine ⟨?_, hkeep⟩
        rintro ⟨r, hr, hall⟩
        rw [hafter, hstamped, mem_stampRevoked] at hr
        rcases hr with ⟨hr, -⟩ | ⟨r', hr', -, rfl⟩
        · exact ⟨r, hr, hall⟩
        · exact ⟨r', hr', hall⟩

/-! ### Names and secrets over a run -/

/-- **Names are never ambiguous, in any run**: a token is minted under a name, or refused because one
stands under it, and `revoke_token` finds the one that stands and no other. -/
theorem revokeToken_eq_ok_iff (hrun : Run (tokenSystem sha256 repr) h rows) (name : String)
    (now : Instant) (record : TokenRecord) :
    (∃ rows', revokeToken repr rows name now = .ok (rows', record)) ↔
      ∃ row, Standing sha256 repr h row ∧ row.name = name ∧
        record = { row with revokedAt := some now : ApiToken }.record := by
  have hsound := sound_of_run hrun
  constructor
  · rintro ⟨rows', hok⟩
    cases hnamed : named name rows with
    | nil =>
        rw [revokeToken_of_unnamed hnamed] at hok
        cases hok
    | cons row rest =>
        have hrow : row ∈ named name rows := by
          rw [hnamed]
          exact List.mem_cons_self
        rw [revokeToken_of_named hsound hrow] at hok
        cases hok
        obtain ⟨hmem, hname, hrevoked⟩ := mem_named.1 hrow
        exact ⟨row, (standing_iff hrun row).2 ⟨hmem, hrevoked⟩, hname, rfl⟩
  · rintro ⟨row, hrow, rfl, rfl⟩
    obtain ⟨hmem, hrevoked⟩ := (standing_iff hrun row).1 hrow
    exact ⟨_, revokeToken_of_named hsound (mem_named.2 ⟨hmem, rfl, hrevoked⟩)⟩

/-- **When a token is minted, in any run**: under a sound name that none stands under, even an
expired one, with a key and a digest that no token ever had, revoked ones included. -/
theorem createToken_eq_ok_iff (hrun : Run (tokenSystem sha256 repr) h rows)
    (id secret name scope : String) (expiresDays : Option ℤ) (now : Instant) :
    (∃ result, createToken sha256 repr rows id secret name scope expiresDays now = .ok result) ↔
      (strip name ≠ "" ∧ (strip name).length ≤ 64) ∧ scope ∈ tokenScopes ∧
        (∀ row, Standing sha256 repr h row → row.name ≠ strip name) ∧
        (∀ e ∈ h, ∀ row, issued sha256 repr e = some row →
          row.id ≠ id ∧ row.tokenSha256 ≠ sha256 secret) ∧
        ∃ expiresAt, expiryOf now expiresDays = .ok expiresAt := by
  have hsound := sound_of_run hrun
  have hfresh : (∀ r ∈ rows, r.id ≠ id ∧ r.tokenSha256 ≠ sha256 secret) ↔
      ∀ e ∈ h, ∀ row, issued sha256 repr e = some row →
        row.id ≠ id ∧ row.tokenSha256 ≠ sha256 secret := by
    constructor
    · intro hrows e he row hissued
      obtain ⟨r, hr, hid, -, hdigest⟩ := (exists_row_iff hrun row.id row.name row.tokenSha256).2
        ⟨e, he, row, hissued, rfl, rfl, rfl⟩
      rw [← hid, ← hdigest]
      exact hrows r hr
    · intro hissues r hr
      obtain ⟨e, he, row, hissued, hid, -, hdigest⟩ :=
        (exists_row_iff hrun r.id r.name r.tokenSha256).1 ⟨r, hr, rfl, rfl, rfl⟩
      rw [← hid, ← hdigest]
      exact hissues e he row hissued
  rw [← named_eq_nil_iff hrun, ← hfresh]
  constructor
  · rintro ⟨result, hok⟩
    obtain ⟨row, hrow, -⟩ := map_eq_ok.1 hok
    obtain ⟨hname, hscope, hfree, hnew, expiresAt, hexpiry, -⟩ :=
      (createRow_eq_ok_iff hsound).1 hrow
    exact ⟨hname, hscope, hfree, hnew, expiresAt, hexpiry⟩
  · rintro ⟨hname, hscope, hfree, hnew, expiresAt, hexpiry⟩
    have hrow : createRow sha256 repr rows id secret name scope expiresDays now = .ok _ :=
      (createRow_eq_ok_iff hsound).2 ⟨hname, hscope, hfree, hnew, expiresAt, hexpiry, rfl⟩
    exact ⟨_, map_eq_ok.2 ⟨_, hrow, rfl⟩⟩

/-- The token an operator mints first. -/
def firstMint : TokenAct := .create "01" "s3cret" " ci " "write" (some 30) 0

/-- The row of that token. -/
def firstRow : ApiToken where
  id := "01"
  name := "ci"
  tokenSha256 := "s3cret"
  scope := "write"
  createdAt := 0
  expiresAt := some 2592000000000

theorem issued_firstMint (rows : List ApiToken) : issued id id ⟨[], firstMint, rows⟩ = some firstRow := by
  rfl

/-- Minting a second token. -/
theorem createToken_eq_ok_iff_second :
    ∃ result, createToken id id [firstRow] "02" "other" "laptop" "read" none 7 = .ok result := by
  have hrun : Run (tokenSystem id id) [⟨[], firstMint, [firstRow]⟩] [firstRow] :=
    (Run.start rfl).step rfl
  have hissues : ∀ e ∈ [(⟨[], firstMint, [firstRow]⟩ : Step (List ApiToken) TokenAct)], ∀ row,
      issued id id e = some row → row = firstRow := by
    intro e he row hissued
    rw [List.mem_singleton.1 he, issued_firstMint] at hissued
    exact (Option.some.inj hissued).symm
  refine (createToken_eq_ok_iff hrun _ _ _ _ _ _).2 ⟨by decide, by decide, ?_, ?_, none, rfl⟩
  · intro row hrow
    obtain ⟨hmem, -⟩ := (standing_iff hrun row).1 hrow
    rw [List.mem_singleton.1 hmem]
    decide
  · intro e he row hissued
    rw [hissues e he row hissued]
    decide

/-- A row that was revoked keeps its digest from every row in use. -/
theorem ne_digest_of_revoked {h₁ h₂ : List (Step (List ApiToken) TokenAct)}
    {e e₀ : Step (List ApiToken) TokenAct} {row row' : ApiToken}
    (hrun : Run (tokenSystem sha256 repr) (h₁ ++ e :: h₂) rows)
    (hrevoke : e.act = .revoke row.name now) (he₀ : e₀ ∈ h₂)
    (hissued : issued sha256 repr e₀ = some row)
    (hrow' : Standing sha256 repr (h₁ ++ e :: h₂) row') : row'.tokenSha256 ≠ row.tokenSha256 := by
  obtain ⟨hpast, hnext, -⟩ := hrun.past
  have hstamped : ∃ r ∈ e.post, r.tokenSha256 = row.tokenSha256 ∧ r.revokedAt ≠ none := by
    obtain ⟨r, hr, -, hname, hdigest⟩ := (exists_row_iff hpast row.id row.name row.tokenSha256).2
      ⟨e₀, he₀, row, hissued, rfl, rfl, rfl⟩
    obtain ⟨r', hr', -, -, hdigest', -, hstamp⟩ := exists_after sha256 repr (sound_of_run hpast) e.act hr
    have hpost : e.post = afterToken sha256 repr e.pre e.act := hnext
    refine ⟨r', by rwa [hpost], hdigest'.trans hdigest, hstamp now ?_⟩
    rw [hname, hrevoke]
  have hnow : ∃ r ∈ rows, r.tokenSha256 = row.tokenSha256 ∧ r.revokedAt ≠ none := by
    refine (hrun.stable (P := fun rows => ∃ r ∈ rows, r.tokenSha256 = row.tokenSha256 ∧
      r.revokedAt ≠ none) hstamped ?_).1
    rintro e' he' ⟨r, hr, hdigest, hrevoked⟩
    obtain ⟨h₃, hrun', hnext'⟩ := hrun.past_of_mem (List.mem_append_left _ he')
    obtain ⟨r', hr', -, -, hdigest', hstays, -⟩ := exists_after sha256 repr (sound_of_run hrun') e'.act hr
    have hpost : e'.post = afterToken sha256 repr e'.pre e'.act := hnext'
    exact ⟨r', by rwa [hpost], hdigest'.trans hdigest, hstays hrevoked⟩
  obtain ⟨r, hr, hdigest, hrevoked⟩ := hnow
  obtain ⟨hmem, hunrevoked⟩ := (standing_iff hrun row').1 hrow'
  intro hsame
  have heq : row' = r := (sound_of_run hrun).eq_of_digest hmem hr (hsame.trans hdigest.symm)
  rw [heq] at hunrevoked
  exact hrevoked hunrevoked

end Runs

end LoadCoach.Web
