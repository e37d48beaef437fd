import LoadCoach.Configuration.Layering
import LoadCoach.Configuration.RuntimeWrites
import LoadCoach.Web.Tokens

/-! # Who is calling

`web/auth.py` finds out from a request who is calling.

`requireScope_eq_ok_iff` reads who is let in off the history of the table: the callers that present
a token that was issued, not revoked since and has not expired, or, on loopback, everyone once no
such token is left.  A revoked token is never one again (`requireScope_of_revoked`). -/

namespace LoadCoach.Web

open Foundations
open LoadCoach.Configuration
open LoadCoach.Configuration.Layering (loopbackHosts)

/-! ### Who is calling -/

/-- How a principal was established. -/
inductive CallerSource where
  | token
  | loopback
  | internal
deriving DecidableEq, Repr

/-- `Principal`, with its source. -/
structure Caller extends Principal where
  source : CallerSource

/-- `_bearer`. -/
def bearerOf : Option String → Option String
  | none => none
  | some authorization =>
      if authorization = "" then none
      else
        let (scheme, value) := partition ' ' authorization
        let bearer := strip (value.getD "")
        if lower scheme ≠ "bearer" ∨ bearer = "" then none else some bearer

/-- The credential a request presents: a bearer, else a cookie, which may be blank. -/
def presentedOf (authorization cookieToken : Option String) : Option String :=
  (bearerOf authorization).or ((cookieToken.filter (· ≠ "")).map strip)

/-- Whether a token is still good at an instant. -/
def ApiToken.isUnexpired (now : Instant) (row : ApiToken) : Bool :=
  match row.expiresAt with
  | none => true
  | some expiry => decide (now < expiry)

/-- The rows that are tokens at an instant. -/
def activeTokens (now : Instant) (rows : List ApiToken) : List ApiToken :=
  rows.filter fun row => row.revokedAt.isNone && row.isUnexpired now

/-- `Unauthorized`. -/
def unauthorized (message : String) : Raised := .suite "UNAUTHORIZED" message []

section Calling

variable (sha256 repr : String → String) (rows : List ApiToken) (authorization : Option String)
  (bindHost : String) (now : Instant) (cookieToken : Option String)

/-- `resolve_principal`. -/
def resolvePrincipal : Except Raised Caller :=
  if (activeTokens now rows).isEmpty then
    if bindHost ∈ loopbackHosts then
      .ok { name := "loopback", scope := "admin", source := .loopback }
    else
      .error (unauthorized
        ("This endpoint requires a bearer token, and no API token is configured. " ++
          "A non-loopback bind must have tokens (api.md §11)."))
  else
    match presentedOf authorization cookieToken with
    | none => .error (unauthorized "This endpoint requires a bearer token.")
    | some presented =>
        match (activeTokens now rows).find? fun row => row.tokenSha256 == sha256 presented with
        | some row => .ok { name := row.name, scope := row.scope, source := .token }
        | none =>
            .error (unauthorized "The bearer token presented is not a known, active API token.")

/-- `require_scope`: the name of the token, or nothing on an open install. -/
def requireScope (required : String) : Except Raised (Option String) := do
  let caller ← resolvePrincipal sha256 rows authorization bindHost now cookieToken
  authorize repr (some caller.toPrincipal) required
  return if caller.source = .token then some caller.name else none

end Calling

section Runs

variable {sha256 repr : String → String} {h : List (Step (List ApiToken) TokenAct)}
  {rows : List ApiToken} {row : ApiToken} {name : String} {now : Instant}

theorem mem_activeTokens (hrun : Run (tokenSystem sha256 repr) h rows) :
    row ∈ activeTokens now rows ↔ Standing sha256 repr h row ∧ row.isUnexpired now = true := by
  rw [standing_iff hrun, activeTokens, List.mem_filter, Bool.and_eq_true, Option.isNone_iff_eq_none,
    and_assoc]

/-! ### Who is let in -/

theorem resolvePrincipal_eq_ok_iff (hrun : Run (tokenSystem sha256 repr) h rows)
    {authorization : Option String} {bindHost : String} {cookieToken : Option String}
    {caller : Caller} :
    resolvePrincipal sha256 rows authorization bindHost now cookieToken = .ok caller ↔
      ((∀ row, Standing sha256 repr h row → row.isUnexpired now = false) ∧
        bindHost ∈ loopbackHosts ∧
        caller = { name := "loopback", scope := "admin", source := .loopback }) ∨
      ∃ row presented, Standing sha256 repr h row ∧ row.isUnexpired now = true ∧
        presentedOf authorization cookieToken = some presented ∧
        row.tokenSha256 = sha256 presented ∧
        caller = { name := row.name, scope := row.scope, source := .token } := by
  have hsound := sound_of_run hrun
  rw [resolvePrincipal]
  cases hactive : activeTokens now rows with
  | nil =>
      have hnone : ∀ row, Standing sha256 repr h row → row.isUnexpired now = false := by
        intro row hrow
        by_contra hunexpired
        have hmem := (mem_activeTokens hrun).2 ⟨hrow, eq_true_of_ne_false hunexpired⟩
        rw [hactive] at hmem
        cases hmem
      simp only [List.isEmpty_nil, if_true]
      split
      · rename_i hloopback
        rw [Except.ok.injEq]
        constructor
        · rintro rfl
          exact .inl ⟨hnone, hloopback, rfl⟩
        · rintro (⟨-, -, rfl⟩ | ⟨row, _, hrow, hunexpired, -⟩)
          · rfl
          · rw [hnone row hrow] at hunexpired
            cases hunexpired
      · rename_i hloopback
        simp only [reduceCtorEq, false_iff]
        rintro (⟨-, hin, -⟩ | ⟨row, _, hrow, hunexpired, -⟩)
        · exact hloopback hin
        · rw [hnone row hrow] at hunexpired
          cases hunexpired
  | cons first rest =>
      have hsome : ¬ ∀ row, Standing sha256 repr h row → row.isUnexpired now = false := by
        intro hnone
        have hfirst : first ∈ activeTokens now rows := by
          rw [hactive]
          exact List.mem_cons_self
        obtain ⟨hrow, hunexpired⟩ := (mem_activeTokens hrun).1 hfirst
        rw [hnone first hrow] at hunexpired
        cases hunexpired
      rw [← hactive]
      have hempty : (activeTokens now rows).isEmpty = false := by rw [hactive]; rfl
      rw [hempty, if_neg (by simp)]
      cases hpresented : presentedOf authorization cookieToken with
      | none => simp [hsome]
      | some presented =>
          have hnodup : ((activeTokens now rows).map (·.tokenSha256)).Nodup :=
            ((List.filter_sublist (l := rows)).map _).nodup hsound.digests
          have hfind := fun row => find?_eq_some_iff_of_nodup hnodup (k := sha256 presented)
            (a := row)
          dsimp only
          cases hfound : (activeTokens now rows).find?
              fun row => row.tokenSha256 == sha256 presented with
          | none =>
              simp only [reduceCtorEq, false_iff]
              rintro (⟨hnone, -⟩ | ⟨row, _, hrow, hunexpired, hp, hdigest, -⟩)
              · exact hsome hnone
              · cases hp
                have hmem := (mem_activeTokens hrun).2 ⟨hrow, hunexpired⟩
                have := (hfind row).2 ⟨hmem, hdigest⟩
                rw [hfound] at this
                cases this
          | some row =>
              obtain ⟨hmem, hdigest⟩ := (hfind row).1 hfound
              obtain ⟨hrow, hunexpired⟩ := (mem_activeTokens hrun).1 hmem
              rw [Except.ok.injEq]
              constructor
              · rintro rfl
                exact .inr ⟨row, presented, hrow, hunexpired, rfl, hdigest, rfl⟩
              · rintro (⟨hnone, -⟩ | ⟨row', _, hrow', hunexpired', hp, hdigest', rfl⟩)
                · exact absurd hnone hsome
                · cases hp
                  have hmem' := (mem_activeTokens hrun).2 ⟨hrow', hunexpired'⟩
                  have := (hfind row').2 ⟨hmem', hdigest'⟩
                  rw [hfound] at this
                  cases this
                  rfl

/-- Whether a scope contains another. -/
def containsScope (held required : String) : Prop :=
  ∃ rank rank', scopeRank held = some rank ∧ scopeRank required = some rank' ∧ rank' ≤ rank

theorem authorize_eq_ok_iff {principal : Principal} {required : String} :
    authorize repr (some principal) required = .ok () ↔ containsScope principal.scope required := by
  have hrank : ∀ scope rank, scopeRank scope = some rank → 0 ≤ rank ∧ rank ≤ 2 := by
    intro scope rank h
    simp only [scopeRank] at h
    split_ifs at h <;> cases h <;> omega
  rw [authorize, containsScope]
  cases hrequired : scopeRank required with
  | none => simp
  | some rank' =>
      have hbounds := hrank required rank' hrequired
      cases hheld : scopeRank principal.scope with
      | none =>
          have hnot : ¬ rank' ≤ -1 := by omega
          simp [Principal.grants, hrequired, hheld, hnot]
      | some rank =>
          by_cases hle : rank' ≤ rank <;> simp [Principal.grants, hrequired, hheld, hle]

/-- **Who is let in, in any run**: on loopback everyone, while no unexpired token stands; else the
caller that presents the secret of a token that was issued, was not revoked since and has not
expired, as far as its scope goes. -/
theorem requireScope_eq_ok_iff (hrun : Run (tokenSystem sha256 repr) h rows)
    (authorization : Option String) (bindHost : String) (now : Instant)
    (cookieToken : Option String) (required : String) (name : Option String) :
    requireScope sha256 repr rows authorization bindHost now cookieToken required = .ok name ↔
      ((∀ row, Standing sha256 repr h row → row.isUnexpired now = false) ∧
        bindHost ∈ loopbackHosts ∧ containsScope "admin" required ∧ name = none) ∨
      ∃ row presented, Standing sha256 repr h row ∧ row.isUnexpired now = true ∧
        presentedOf authorization cookieToken = some presented ∧
        row.tokenSha256 = sha256 presented ∧ containsScope row.scope required ∧
        name = some row.name := by
  rw [requireScope, bind_eq_ok]
  constructor
  · rintro ⟨caller, hcaller, hrest⟩
    obtain ⟨⟨⟩, hauthorized, hname⟩ := bind_eq_ok.1 hrest
    have hcontains := authorize_eq_ok_iff.1 hauthorized
    rw [pure_eq_ok] at hname
    rcases (resolvePrincipal_eq_ok_iff hrun).1 hcaller with
      ⟨hnone, hloopback, rfl⟩ | ⟨row, presented, hrow, hunexpired, hpresented, hdigest, rfl⟩
    · exact .inl ⟨hnone, hloopback, hcontains, hname.symm⟩
    · exact .inr ⟨row, presented, hrow, hunexpired, hpresented, hdigest, hcontains, hname.symm⟩
  · rintro (⟨hnone, hloopback, hcontains, rfl⟩ |
      ⟨row, presented, hrow, hunexpired, hpresented, hdigest, hcontains, rfl⟩)
    · refine ⟨_, (resolvePrincipal_eq_ok_iff hrun).2 (.inl ⟨hnone, hloopback, rfl⟩), ?_⟩
      exact bind_eq_ok.2 ⟨(), authorize_eq_ok_iff.2 hcontains, rfl⟩
    · refine ⟨_, (resolvePrincipal_eq_ok_iff hrun).2
        (.inr ⟨row, presented, hrow, hunexpired, hpresented, hdigest, rfl⟩), ?_⟩
      exact bind_eq_ok.2 ⟨(), authorize_eq_ok_iff.2 hcontains, rfl⟩

/-- A script reads with the token of a write scope, from another machine. -/
theorem requireScope_eq_ok_iff_read :
    requireScope id id [firstRow] (some "Bearer s3cret ") "10.0.0.5" 1 none "read" =
      .ok (some "ci") := by
  have hrun : Run (tokenSystem id id) [⟨[], firstMint, [firstRow]⟩] [firstRow] :=
    (Run.start rfl).step rfl
  refine (requireScope_eq_ok_iff hrun _ _ _ _ _ _).2 (.inr ⟨firstRow, "s3cret", ?_, rfl, rfl, rfl,
    ⟨1, 0, rfl, rfl, by decide⟩, rfl⟩)
  exact ⟨[], _, [], rfl, issued_firstMint [firstRow], by simp⟩

/-- **A revoked token is never one again, in any run**: whatever is minted or revoked after its name
was, a caller that presents it is let in on an open loopback install only, like everyone else. -/
theorem requireScope_of_revoked {h₁ h₂ : List (Step (List ApiToken) TokenAct)}
    {e e₀ : Step (List ApiToken) TokenAct} {row : ApiToken} {revokedAt : Instant}
    (hrun : Run (tokenSystem sha256 repr) (h₁ ++ e :: h₂) rows) (he₀ : e₀ ∈ h₂)
    (hissued : issued sha256 repr e₀ = some row) (hrevoke : e.act = .revoke row.name revokedAt)
    {authorization cookieToken : Option String} {presented : String}
    (hpresented : presentedOf authorization cookieToken = some presented)
    (hdigest : sha256 presented = row.tokenSha256) {bindHost required : String} {now : Instant}
    {name : Option String}
    (hok : requireScope sha256 repr rows authorization bindHost now cookieToken required =
      .ok name) :
    bindHost ∈ loopbackHosts ∧ name = none ∧
      ∀ row', Standing sha256 repr (h₁ ++ e :: h₂) row' → row'.isUnexpired now = false := by
  rcases (requireScope_eq_ok_iff hrun authorization bindHost now cookieToken required name).1 hok
    with ⟨hnone, hloopback, -, hname⟩ | ⟨row', presented', hrow', -, hpresented', hdigest', -⟩
  · exact ⟨hloopback, hname, hnone⟩
  · cases hpresented.symm.trans hpresented'
    exact absurd (hdigest'.trans hdigest) (ne_digest_of_revoked hrun hrevoke he₀ hissued hrow')

/-- A revoked token on a loopback install without another. -/
theorem requireScope_of_revoked_loopback :
    "127.0.0.1" ∈ loopbackHosts ∧ (none : Option String) = none ∧
      ∀ row', Standing id id
        [⟨[firstRow], .revoke "ci" 5, [{ firstRow with revokedAt := some 5 }]⟩,
          ⟨[], firstMint, [firstRow]⟩] row' → row'.isUnexpired 9 = false := by
  have hrun : Run (tokenSystem id id)
      ([] ++ ⟨[firstRow], .revoke "ci" 5, [{ firstRow with revokedAt := some 5 }]⟩ ::
        [⟨[], firstMint, [firstRow]⟩]) [{ firstRow with revokedAt := some 5 }] :=
    ((Run.start rfl).step rfl).step rfl
  have hpresented : presentedOf (some "Bearer s3cret") none = some "s3cret" := rfl
  have hok : requireScope id id [{ firstRow with revokedAt := some 5 }] (some "Bearer s3cret")
      "127.0.0.1" 9 none "admin" = .ok none := rfl
  exact requireScope_of_revoked hrun (List.mem_singleton_self _) (issued_firstMint [firstRow]) rfl
    hpresented rfl hok

end Runs

end LoadCoach.Web
