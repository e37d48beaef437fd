import LoadCoach.Fetch.Guards

/-! # The credential of the evidence source

`credential_for` gives the configured token to URLs of the configured origin only: scheme, host and
port.  `fetch` then sends it with every request it makes, and `_next_hop` compares hosts alone.

`Reached` is exact (`requested_iff`), so the token leaves its origin exactly where an answer leads to
another scheme or port of the same host (`credential_stays_iff`). -/

namespace LoadCoach.Fetch

open Foundations Foundations.Traced

/-! ### The credential -/

/-- `[evidence]`, as far as the source is concerned. -/
structure EvidenceSettings where
  freeweightUrl : String := ""
  freeweightApiKeyEnv : String := ""
  freeweightApiKeyFile : String := ""

/-- Where a secret is read: the environment, and the files that can be read. -/
structure Secrets where
  environ : String → Option String
  readText : String → Option String

/-- A text that is not empty. -/
def nonempty (text : String) : Option String := if text = "" then none else some text

/-- `resolve_credential`. -/
def resolveCredential (secrets : Secrets) (settings : EvidenceSettings) : Option String :=
  ((nonempty settings.freeweightApiKeyEnv).bind fun name =>
      nonempty (strip ((secrets.environ name).getD ""))).or
    ((nonempty settings.freeweightApiKeyFile).bind fun file =>
      (secrets.readText file).bind fun text => nonempty (strip text))

variable {Url : Type}

/-- `credential_for`. -/
def credentialFor (httpx : Httpx Url) (secrets : Secrets) (settings : EvidenceSettings)
    (url : String) : Option String :=
  let configured := strip settings.freeweightUrl
  if configured = "" then none
  else
    match httpx.parse url, httpx.parse configured with
    | some target, some owner =>
        if httpx.origin target = httpx.origin owner then resolveCredential secrets settings
        else none
    | _, _ => none

/-- How the evidence of a URL is pulled. -/
def pull (httpx : Httpx Url) (policy : FetchPolicy) (world : World) (secrets : Secrets)
    (settings : EvidenceSettings) (fuel : ℕ) (url : String) (since : Option String) :
    Client Url FetchedBundle :=
  fetch httpx policy world fuel url since (credentialFor httpx secrets settings url)

section Credential

variable {httpx : Httpx Url} {secrets : Secrets} {settings : EvidenceSettings} {url : String}
  {token : String}

theorem nonempty_eq_some_iff {text : String} : nonempty text = some token ↔
    text = token ∧ token ≠ "" := by
  rw [nonempty]
  split
  · rename_i hempty
    rw [hempty]
    exact iff_of_false nofun fun h => h.2 h.1.symm
  · rename_i hnonempty
    rw [Option.some.injEq]
    exact ⟨fun h => ⟨h, h ▸ hnonempty⟩, And.left⟩

theorem resolveCredential_nonempty (h : resolveCredential secrets settings = some token) :
    token ≠ "" := by
  rw [resolveCredential, Option.or_eq_some_iff] at h
  obtain h | ⟨-, h⟩ := h
  · obtain ⟨_, -, h⟩ := Option.bind_eq_some_iff.1 h
    exact (nonempty_eq_some_iff.1 h).2
  · obtain ⟨_, -, h⟩ := Option.bind_eq_some_iff.1 h
    obtain ⟨_, -, h⟩ := Option.bind_eq_some_iff.1 h
    exact (nonempty_eq_some_iff.1 h).2

/-- **The credential is of the configured origin.** -/
theorem origin_of_credentialFor (h : credentialFor httpx secrets settings url = some token) :
    token ≠ "" ∧ ∃ target owner, httpx.parse url = some target ∧
      httpx.parse (strip settings.freeweightUrl) = some owner ∧
      httpx.origin target = httpx.origin owner := by
  rw [credentialFor] at h
  split at h
  · cases h
  · split at h
    · rename_i target owner htarget howner
      split at h
      · rename_i hsame
        exact ⟨resolveCredential_nonempty h, target, owner, htarget, howner, hsame⟩
      · cases h
    · cases h

/-- The header that carries the credential. -/
def authorized (headers : List (String × String)) : Prop :=
  ∃ value, ("Authorization", value) ∈ headers

theorem authorized_requestHeaders_iff {credential : Option String}
    (hcredential : ∀ token, credential = some token → token ≠ "") :
    authorized (requestHeaders credential) ↔ credential ≠ none := by
  cases credential with
  | none =>
      refine iff_of_false ?_ (fun h => h rfl)
      rintro ⟨value, hin⟩
      simp [requestHeaders] at hin
  | some token =>
      refine iff_of_true ⟨s!"Bearer {token}", ?_⟩ nofun
      simp [requestHeaders, hcredential token rfl]

end Credential

/-! ### The requests of a fetch -/

section Requests

variable {httpx : Httpx Url} {policy : FetchPolicy} {world : World} {url : String}
  {since credential : Option String} {fuel attempt : ℕ} {target next : Url}
  {headers : List (String × String)}

theorem Reached.le (h : Reached httpx policy world url since attempt target) :
    attempt ≤ policy.maxRedirects := by
  cases h with
  | start => exact Nat.zero_le _
  | hop _ hnext =>
      obtain ⟨_, -, -, hbound, -⟩ := hnext
      exact hbound

theorem requested_mem_follow {originHost : String} : .requested attempt target headers ∈
    (follow httpx policy world originHost headers (fuel + 1) attempt target).events := by
  rw [follow, send]
  cases world.answer attempt with
  | ok response => exact List.mem_cons_self
  | error message => exact List.mem_cons_self

theorem Reached.follow (h : Reached httpx policy world url since attempt target) :
    ∃ before, (fetch httpx policy world (fuel + attempt) url since credential).events = before ++
      (follow httpx policy world (httpx.host target) (requestHeaders credential) fuel attempt
        target).events := by
  induction h generalizing fuel with
  | start hchecked =>
      refine ⟨[.checked 0 url], ?_⟩
      rw [fetch, hchecked]
      rfl
  | @hop redirects _ _ _ hnext ih =>
      obtain ⟨before, hevents⟩ := @ih (fuel + 1)
      have hfuel : fuel + (redirects + 1) = fuel + 1 + redirects := by omega
      rw [follow_of_redirected hnext, ← List.append_assoc] at hevents
      rw [hfuel]
      exact ⟨_, hevents⟩

/-- **The requests of a fetch** are those the answers lead to. -/
theorem requested_iff (hfuel : policy.maxRedirects < fuel) :
    .requested attempt target headers ∈
        (fetch httpx policy world fuel url since credential).events ↔
      Reached httpx policy world url since attempt target ∧ headers = requestHeaders credential := by
  constructor
  · intro hin
    obtain ⟨before, after, heq⟩ := List.append_of_mem hin
    obtain ⟨hreached, -, -, -, hheaders⟩ := meets_fetch.permitted.split heq
    exact ⟨hreached, hheaders⟩
  · rintro ⟨hreached, rfl⟩
    obtain ⟨rest, rfl⟩ := Nat.exists_eq_add_of_lt (hreached.le.trans_lt hfuel)
    obtain ⟨before, hevents⟩ := @Reached.follow Url httpx policy world url since credential
      (rest + 1) attempt target hreached
    rw [Nat.add_assoc, Nat.add_comm attempt, hevents]
    exact List.mem_append_right _ requested_mem_follow

end Requests

/-! ### Where the credential goes -/

section Stays

variable {httpx : Httpx Url} {policy : FetchPolicy} {world : World} {secrets : Secrets}
  {settings : EvidenceSettings} {url : String} {since : Option String} {fuel : ℕ}

theorem Reached.origin (hlawful : httpx.Lawful)
    (hkept : ∀ redirects target next, Reached httpx policy world url since redirects target →
      Redirected httpx policy world redirects target next →
        httpx.scheme next = httpx.scheme target ∧ httpx.port next = httpx.port target)
    {attempt : ℕ} {target : Url} (h : Reached httpx policy world url since attempt target) :
    ∃ first, httpx.parse url = some first ∧ httpx.origin target = httpx.origin first := by
  induction h with
  | start hchecked =>
      exact ⟨_, (checkUrl_eq_ok_iff.1 hchecked).1, firstTarget_origin hlawful _ since⟩
  | hop hreached hnext ih =>
      obtain ⟨first, hfirst, horigin⟩ := ih
      obtain ⟨hscheme, hport⟩ := hkept _ _ _ hreached hnext
      obtain ⟨_, -, -, -, -, hhost, -⟩ := hnext
      refine ⟨first, hfirst, Eq.trans ?_ horigin⟩
      rw [Httpx.origin, Httpx.origin, hscheme, hhost, hport]

/-- **The credential stays with its origin** exactly where there is none for the URL, or no redirect
that is followed changes scheme or port. -/
theorem credential_stays_iff (hlawful : httpx.Lawful) (hfuel : policy.maxRedirects < fuel) :
    (∀ attempt target headers,
      .requested attempt target headers ∈
        (pull httpx policy world secrets settings fuel url since).events →
      authorized headers →
        ∃ owner, httpx.parse (strip settings.freeweightUrl) = some owner ∧
          httpx.origin target = httpx.origin owner) ↔
      credentialFor httpx secrets settings url = none ∨
        ∀ redirects target next, Reached httpx policy world url since redirects target →
          Redirected httpx policy world redirects target next →
            httpx.scheme next = httpx.scheme target ∧ httpx.port next = httpx.port target := by
  cases hcredential : credentialFor httpx secrets settings url with
  | none =>
      refine iff_of_true (fun attempt target headers hin hauthorized => ?_) (.inl rfl)
      rw [pull, hcredential] at hin
      rw [((requested_iff hfuel).1 hin).2,
        authorized_requestHeaders_iff fun _ htoken => by cases htoken] at hauthorized
      exact absurd rfl hauthorized
  | some token =>
      obtain ⟨htoken, first, owner, hfirst, howner, hsame⟩ := origin_of_credentialFor hcredential
      have hauthorized : authorized (requestHeaders (some token)) := by
        refine (authorized_requestHeaders_iff ?_).2 nofun
        rintro _ ⟨⟩
        exact htoken
      have hsent : ∀ {attempt target headers}, .requested attempt target headers ∈
          (pull httpx policy world secrets settings fuel url since).events ↔
            Reached httpx policy world url since attempt target ∧
              headers = requestHeaders (some token) := by
        intro attempt target headers
        rw [pull, hcredential]
        exact requested_iff hfuel
      constructor
      · intro hstays
        refine .inr fun redirects target next hreached hnext => ?_
        obtain ⟨owner₁, howner₁, horigin₁⟩ :=
          hstays _ _ _ (hsent.2 ⟨hreached, rfl⟩) hauthorized
        obtain ⟨owner₂, howner₂, horigin₂⟩ :=
          hstays _ _ _ (hsent.2 ⟨hreached.hop hnext, rfl⟩) hauthorized
        obtain rfl := Option.some.inj (howner₁.symm.trans howner₂)
        obtain ⟨hscheme, hrest⟩ := Prod.ext_iff.1 (horigin₂.trans horigin₁.symm)
        exact ⟨hscheme, (Prod.ext_iff.1 hrest).2⟩
      · rintro (hnone | hkept) attempt target headers hin -
        · cases hnone
        · obtain ⟨first', hfirst', horigin⟩ := Reached.origin hlawful hkept (hsent.1 hin).1
          obtain rfl := Option.some.inj (hfirst.symm.trans hfirst')
          exact ⟨owner, howner, horigin.trans hsame⟩

/-- The token of the source on this machine. -/
def localSecrets : Secrets where
  environ := fun name => if name = "FREEWEIGHT_TOKEN" then some "s3cret\n" else none
  readText := fun _ => none

def localEvidence : EvidenceSettings :=
  { freeweightUrl := "http://127.0.0.1:8765", freeweightApiKeyEnv := "FREEWEIGHT_TOKEN" }

/-- A source that sends its clients to another port. -/
def leakingWorld : World where
  resolve := fun _ _ => []
  answer := fun attempt =>
    .ok (if attempt = 0 then redirectTo "http://127.0.0.1:9999/export" else emptyBundle)

theorem leaking_reached :
    Reached localHttpx localPolicy leakingWorld "http://127.0.0.1:8765" none 0 .exported ∧
      Redirected localHttpx localPolicy leakingWorld 0 .exported .elsewhere := by
  constructor
  · have hchecked : checkUrl localHttpx localPolicy (leakingWorld.resolve 0)
        "http://127.0.0.1:8765" = .ok .source := by
      refine checkUrl_eq_ok_iff.2 ⟨rfl, ?_, ?_, ?_, ?_⟩ <;> decide +kernel
    exact Reached.start hchecked
  · refine ⟨redirectTo "http://127.0.0.1:9999/export", rfl, rfl, by decide, rfl, rfl, .elsewhere,
      checkUrl_eq_ok_iff.2 ⟨rfl, ?_, ?_, ?_, ?_⟩⟩ <;>
      decide +kernel

/-- The token is sent to another port. -/
theorem credential_leaks :
    ¬ ∀ attempt target headers,
      .requested attempt target headers ∈
        (pull localHttpx localPolicy leakingWorld localSecrets localEvidence 24
          "http://127.0.0.1:8765" none).events →
      authorized headers →
        ∃ owner, localHttpx.parse (strip localEvidence.freeweightUrl) = some owner ∧
          localHttpx.origin target = localHttpx.origin owner := by
  intro hstays
  have hcredential : credentialFor localHttpx localSecrets localEvidence "http://127.0.0.1:8765" =
      some "s3cret" := by
    decide +kernel
  obtain ⟨hreached, hnext⟩ := leaking_reached
  obtain ⟨owner, howner, horigin⟩ := hstays 1 .elsewhere (requestHeaders (some "s3cret")) (by
    rw [pull, hcredential]
    exact (requested_iff (by decide)).2 ⟨hreached.hop hnext, rfl⟩)
    ⟨"Bearer s3cret", by decide⟩
  have hsource : owner = .source := by
    have hparse : localHttpx.parse (strip localEvidence.freeweightUrl) = some .source := by
      decide +kernel
    exact (Option.some.inj (hparse.symm.trans howner)).symm
  rw [hsource] at horigin
  exact absurd horigin (by decide)

/-- Moved within its origin, the source is sent the token, and no other. -/
theorem credential_stays_moved :
    credentialFor localHttpx localSecrets localEvidence "http://127.0.0.1:8765" = some "s3cret" ∧
      ∀ attempt target headers,
        .requested attempt target headers ∈
          (pull localHttpx localPolicy movedWorld localSecrets localEvidence 24
            "http://127.0.0.1:8765" none).events →
        authorized headers →
          ∃ owner, localHttpx.parse (strip localEvidence.freeweightUrl) = some owner ∧
            localHttpx.origin target = localHttpx.origin owner := by
  refine ⟨by decide +kernel, (credential_stays_iff localHttpx_lawful (by decide)).2 (.inr ?_)⟩
  rintro redirects target next hreached ⟨response, hanswer, hredirect, -, hjoin, -⟩
  obtain rfl : (if redirects = 0 then _ else emptyBundle) = response := Except.ok.inj hanswer
  cases hreached with
  | start hchecked =>
      obtain rfl : LocalUrl.source = _ := Option.some.inj (checkUrl_eq_ok_iff.1 hchecked).1
      obtain rfl : LocalUrl.exported = next := Option.some.inj hjoin
      exact ⟨rfl, by decide⟩
  | hop =>
      rw [if_neg (Nat.succ_ne_zero _)] at hredirect
      exact absurd hredirect (by decide)

end Stays

end LoadCoach.Fetch
