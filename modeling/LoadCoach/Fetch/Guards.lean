import LoadCoach.Fetch.Client

/-! # The guards of a fetch

Whatever the server answers, and whatever the names resolve to, a fetch requests only URLs that
`check_url` has let pass, follows `max_redirects` redirects at most, keeps `max_bytes` bytes at most,
and reads no body before it has accepted the head of the answer.

`Reached` says which URLs the answers lead to.  `Guarded` is the policy for the events of the client:
every function of it keeps to `Guarded` (`meets_stream`, `meets_read`, `meets_nextHop`,
`meets_follow`, `meets_fetch`), and the guards are read off a trace that does.

That the fetch ends as well is another matter.  The limit counts the bytes that were decoded, so a
body that decodes to nothing for ever is never cut off (`Response.Stalls`), and only such a body keeps
a fetch from its end (`fetch_guarded_iff`). -/

namespace LoadCoach.Fetch

open Foundations Foundations.Traced

/-! ### Origins -/

variable {Url : Type} {httpx : Httpx Url} {policy : FetchPolicy} {world : World}

/-- Scheme, host and port. -/
def Httpx.origin (httpx : Httpx Url) (url : Url) : String × String × Option ℕ :=
  (httpx.scheme url, httpx.host url, httpx.port url)

/-- What the library says of its URLs: printing keeps the origin, and another path or another
parameter is of the same origin. -/
structure Httpx.Lawful (httpx : Httpx Url) : Prop where
  text_origin : ∀ url url', httpx.parse (httpx.text url) = some url' →
    httpx.origin url' = httpx.origin url
  withPath_origin : ∀ url path, httpx.origin (httpx.withPath url path) = httpx.origin url
  setParam_origin : ∀ url key value, httpx.origin (httpx.setParam url key value) = httpx.origin url

theorem firstTarget_origin (hlawful : httpx.Lawful) (url : Url) (since : Option String) :
    httpx.origin (firstTarget httpx url since) = httpx.origin url := by
  have hexport : httpx.origin (withExportPath httpx url) = httpx.origin url := by
    rw [withExportPath]
    split
    · exact hlawful.withPath_origin url _
    · rfl
  cases since with
  | none => exact hexport
  | some instant => exact (hlawful.setParam_origin _ _ _).trans hexport

/-- The rules of a URL: it is `http` or `https`, its host is in the allowlist, and the host neither is
nor resolves to a link-local address. -/
structure Fetchable (httpx : Httpx Url) (policy : FetchPolicy) (resolve : String → List String)
    (url : Url) : Prop where
  scheme : lower (httpx.scheme url) ∈ allowedSchemes
  named : httpx.host url ≠ ""
  host : lower (httpx.host url) ∈ policy.allowedHosts.map lower
  addresses : ∀ address ∈ addressesOf resolve (httpx.host url), address.isLinkLocal = false

/-- **`check_url` lets pass** what keeps the rules, and returns the URL it was given. -/
theorem checkUrl_eq_ok_iff {resolve : String → List String} {url : String} {checked : Url} :
    checkUrl httpx policy resolve url = .ok checked ↔
      httpx.parse url = some checked ∧ Fetchable httpx policy resolve checked := by
  rw [checkUrl]
  cases hparse : httpx.parse url with
  | none => exact iff_of_false nofun fun h => by cases h.1
  | some parsed =>
      by_cases hscheme : lower (httpx.scheme parsed) ∈ allowedSchemes
      · by_cases hnamed : httpx.host parsed = ""
        · simp only [hscheme, hnamed, not_true_eq_false, if_false, if_true]
          refine iff_of_false nofun ?_
          rintro ⟨⟨⟩, hrules⟩
          exact hrules.named hnamed
        · by_cases hhost : lower (httpx.host parsed) ∈ policy.allowedHosts.map lower
          · simp only [hscheme, hnamed, hhost, not_true_eq_false, if_false]
            cases hfind : (addressesOf resolve (httpx.host parsed)).find? IpAddress.isLinkLocal with
            | none =>
                have haddresses := List.find?_eq_none.1 hfind
                simp only [Bool.not_eq_true] at haddresses
                constructor
                · rintro ⟨⟩
                  exact ⟨rfl, hscheme, hnamed, hhost, haddresses⟩
                · rintro ⟨⟨⟩, -⟩
                  rfl
            | some found =>
                refine iff_of_false nofun ?_
                rintro ⟨⟨⟩, hrules⟩
                have hlocal := hrules.addresses found (List.mem_of_find?_eq_some hfind)
                rw [List.find?_some hfind] at hlocal
                cases hlocal
          · simp only [hscheme, hnamed, hhost, not_true_eq_false, not_false_eq_true, if_false, if_true]
            refine iff_of_false nofun ?_
            rintro ⟨⟨⟩, hrules⟩
            exact hhost hrules.host
      · simp only [hscheme, not_false_eq_true, if_true]
        refine iff_of_false nofun ?_
        rintro ⟨⟨⟩, hrules⟩
        exact hscheme hrules.scheme

theorem checkContentType_eq_ok_iff {response : Response} {url contentType : String} :
    checkContentType httpx response url = .ok contentType ↔
      isJson (mediaType response) = true ∧ mediaType response = contentType := by
  rw [checkContentType]
  split
  · rename_i hjson
    simp [hjson]
  · rename_i hjson
    simp [hjson]

/-- No length is declared over the limit, and none that `int` refuses. -/
def Response.Fits (policy : FetchPolicy) (response : Response) : Prop :=
  ∀ declared, response.header "content-length" = some declared → isDigits declared = true →
    ∃ n, intOfDigits declared = some n ∧ n ≤ policy.maxBytes

theorem checkDeclared_eq_ok_iff {response : Response} {url : String} :
    checkDeclared policy response url = .ok () ↔ response.Fits policy := by
  rw [checkDeclared, Response.Fits]
  cases response.header "content-length" with
  | none => simp
  | some declared =>
      simp only [Option.some.injEq, forall_eq']
      cases isDigits declared with
      | false => simp
      | true =>
          cases intOfDigits declared with
          | none => simp
          | some n => simp

/-! ### Where the answers lead -/

variable (httpx policy world) in
/-- An answer leads from one URL to the next: it is a redirect to the same host, which `check_url`
lets pass, and not one too many. -/
def Redirected (redirects : ℕ) (target next : Url) : Prop :=
  ∃ response, world.answer redirects = .ok response ∧ response.isRedirect = true ∧
    redirects + 1 ≤ policy.maxRedirects ∧
    httpx.join target ((response.header "location").getD "") = some next ∧
    httpx.host next = httpx.host target ∧
    ∃ checked, checkUrl httpx policy (world.resolve (redirects + 1)) (httpx.text next) = .ok checked

variable (httpx policy world) in
/-- The URL that is requested after so many redirects. -/
inductive Reached (url : String) (since : Option String) : ℕ → Url → Prop where
  | start {checked : Url} (h : checkUrl httpx policy (world.resolve 0) url = .ok checked) :
      Reached url since 0 (firstTarget httpx checked since)
  | hop {redirects : ℕ} {target next : Url} (hreached : Reached url since redirects target)
      (hnext : Redirected httpx policy world redirects target next) :
      Reached url since (redirects + 1) next

/-! ### The policy of the client -/

/-- An event that is a request. -/
def FetchEvent.isRequest : FetchEvent Url → Bool
  | requested _ _ _ => true
  | _ => false

/-- How many bytes an event keeps. -/
def FetchEvent.keeps : FetchEvent Url → ℕ
  | kept chunk => chunk.length
  | _ => 0

/-- How many requests were made. -/
def requests (h : List (FetchEvent Url)) : ℕ := h.countP FetchEvent.isRequest

/-- How many bytes are kept. -/
def keptBytes (h : List (FetchEvent Url)) : ℕ := (h.map FetchEvent.keeps).sum

@[simp] theorem requests_append (h h' : List (FetchEvent Url)) :
    requests (h ++ h') = requests h + requests h' := List.countP_append

@[simp] theorem requests_cons (e : FetchEvent Url) (h : List (FetchEvent Url)) :
    requests (e :: h) = requests h + if e.isRequest then 1 else 0 := List.countP_cons

@[simp] theorem requests_nil : requests ([] : List (FetchEvent Url)) = 0 := rfl

@[simp] theorem keptBytes_append (h h' : List (FetchEvent Url)) :
    keptBytes (h ++ h') = keptBytes h + keptBytes h' := by
  simp [keptBytes]

@[simp] theorem keptBytes_cons (e : FetchEvent Url) (h : List (FetchEvent Url)) :
    keptBytes (e :: h) = e.keeps + keptBytes h := by
  simp [keptBytes]

@[simp] theorem keptBytes_nil : keptBytes ([] : List (FetchEvent Url)) = 0 := rfl

/-- A URL was checked before: it, or the URL it is the export endpoint of. -/
def Passed (httpx : Httpx Url) (policy : FetchPolicy) (world : World) (since : Option String)
    (h : List (FetchEvent Url)) (attempt : ℕ) (target : Url) : Prop :=
  ∃ text checked, .checked attempt text ∈ h ∧
    checkUrl httpx policy (world.resolve attempt) text = .ok checked ∧
    (text = httpx.text target ∨ target = firstTarget httpx checked since)

/-- The head of an answer that may be read. -/
def Response.Acceptable (response : Response) : Prop :=
  response.isRedirect = false ∧ response.status < 400 ∧ isJson (mediaType response) = true

variable (httpx policy world) in
/-- **What the client may do after what it has done.** -/
def Guarded (url : String) (since : Option String) (headers : List (String × String))
    (h : List (FetchEvent Url)) : FetchEvent Url → Prop
  | .requested attempt target sent =>
      Reached httpx policy world url since attempt target ∧
        Passed httpx policy world since h attempt target ∧
        requests h = attempt ∧ attempt ≤ policy.maxRedirects ∧ sent = headers
  | .accepted attempt contentType =>
      ∃ response, world.answer attempt = .ok response ∧ response.Acceptable ∧
        contentType = mediaType response
  | .received attempt _ => ∃ contentType, .accepted attempt contentType ∈ h
  | .kept chunk => keptBytes h + chunk.length ≤ policy.maxBytes
  | .checked _ _ => True
  | .closed _ => True

section Meets

variable {url : String} {since : Option String} {headers : List (String × String)}
  {h : List (FetchEvent Url)} {attempt : ℕ}

theorem meets_stream {body : ℕ → Piece} {shown contentType : String}
    (haccepted : .accepted attempt contentType ∈ h) {fuel i : ℕ} {chunks : List Bytes} {size : ℕ}
    (hsize : size = keptBytes h) (hchunks : chunks.flatten.length = size) :
    Meets (Guarded httpx policy world url since headers) h
      (stream policy attempt shown body fuel i chunks size)
      fun h' chunks' => chunks'.flatten.length = keptBytes h' := by
  induction fuel generalizing h i chunks size with
  | zero => exact meets_unfinished
  | succ fuel ih =>
      rw [stream]
      split
      · exact ih haccepted hsize hchunks
      · exact meets_pure (hchunks.trans hsize)
      · exact meets_raise
      · rename_i bytes _ _
        refine Meets.emit ⟨contentType, haccepted⟩ ?_
        split
        · exact meets_raise
        · rename_i hfits
          have hkept : keptBytes (h ++ [.received attempt bytes]) = keptBytes h := by
            simp [FetchEvent.keeps]
          refine Meets.emit (by rw [Guarded, hkept, ← hsize]; exact not_lt.1 hfits) ?_
          refine ih (List.mem_append_left _ (List.mem_append_left _ haccepted)) ?_ ?_
          · simp [hsize, FetchEvent.keeps]
          · rw [List.flatten_append, List.length_append, hchunks, List.flatten_singleton]

theorem meets_read {fuel : ℕ} {response : Response} {target : Url}
    (hanswer : world.answer attempt = .ok response) (hfinal : response.isRedirect = false)
    (hempty : keptBytes h = 0) :
    Meets (Guarded httpx policy world url since headers) h
      (read httpx policy fuel attempt response target)
      fun h' bundle => bundle.document.length = keptBytes h' := by
  refine Meets.finallyEmit ?_ (fun _ => trivial) fun h' bundle hpost => ?_
  · split
    · exact meets_raise
    · rename_i hstatus
      refine Meets.lift fun contentType hcontent => ?_
      obtain ⟨hjson, rfl⟩ := checkContentType_eq_ok_iff.1 hcontent
      refine Meets.emit ⟨response, hanswer, ⟨hfinal, not_le.1 hstatus, hjson⟩, rfl⟩ ?_
      refine Meets.lift fun _ _ => ?_
      refine Meets.bind (meets_stream (List.mem_append_right _ List.mem_cons_self) ?_ rfl)
        fun h' chunks hchunks => meets_pure hchunks
      simp [hempty, FetchEvent.keeps]
  · simpa [FetchEvent.keeps] using hpost

theorem meets_send {target : Url} (hreached : Reached httpx policy world url since attempt target)
    (hpassed : Passed httpx policy world since h attempt target) (hcount : requests h = attempt)
    (hbound : attempt ≤ policy.maxRedirects) :
    Meets (Guarded httpx policy world url since headers) h
      (send httpx world attempt target headers)
      fun h' response => h' = h ++ [.requested attempt target headers] ∧
        world.answer attempt = .ok response := by
  refine Meets.emit ⟨hreached, hpassed, hcount, hbound, rfl⟩ ?_
  split
  · rename_i response hanswer
    exact meets_pure ⟨rfl, hanswer⟩
  · exact meets_raise

theorem meets_nextHop {response : Response} {target : Url}
    (hanswer : world.answer attempt = .ok response) (hredirect : response.isRedirect = true) :
    Meets (Guarded httpx policy world url since headers) h
      (nextHop httpx policy world response target (httpx.host target) (attempt + 1))
      fun h' next => h' = h ++ [.checked (attempt + 1) (httpx.text next)] ∧
        Redirected httpx policy world attempt target next := by
  rw [nextHop]
  split
  · exact meets_raise
  · rename_i hbound
    split
    · exact meets_raise
    · rename_i next hjoin
      split
      · exact meets_raise
      · rename_i hhost
        refine Meets.lift fun checked hchecked => ?_
        refine Meets.emit trivial (meets_pure ⟨rfl, response, hanswer, hredirect, ?_⟩)
        exact ⟨not_lt.1 hbound, hjoin, not_not.1 hhost, checked, hchecked⟩

/-- **The loop of `fetch`**: each round requests a URL that was checked, one request a round. -/
theorem meets_follow {fuel : ℕ} {target : Url}
    (hreached : Reached httpx policy world url since attempt target)
    (hpassed : Passed httpx policy world since h attempt target) (hcount : requests h = attempt)
    (hbound : attempt ≤ policy.maxRedirects) (hempty : keptBytes h = 0) :
    Meets (Guarded httpx policy world url since headers) h
      (follow httpx policy world (httpx.host target) headers fuel attempt target)
      fun h' bundle => bundle.document.length = keptBytes h' := by
  induction fuel generalizing h attempt target with
  | zero => exact meets_unfinished
  | succ fuel ih =>
      rw [follow]
      refine Meets.bind (meets_send hreached hpassed hcount hbound) ?_
      rintro _ response ⟨rfl, hanswer⟩
      split
      · rename_i hredirect
        refine Meets.emit trivial (Meets.bind (meets_nextHop hanswer hredirect) ?_)
        rintro _ next ⟨rfl, hnext⟩
        have hreached' := hreached.hop hnext
        obtain ⟨_, -, -, hfits, -, hhost, checked, hchecked⟩ := hnext
        rw [← hhost]
        refine ih hreached' ?_ ?_ hfits ?_
        · exact ⟨_, checked, List.mem_append_right _ List.mem_cons_self, hchecked, .inl rfl⟩
        · simp [hcount, FetchEvent.isRequest]
        · simp [hempty, FetchEvent.keeps]
      · rename_i hfinal
        refine meets_read hanswer (Bool.not_eq_true _ ▸ hfinal) ?_
        simp [hempty, FetchEvent.keeps]

theorem meets_fetch {fuel : ℕ} {credential : Option String} :
    Meets (Guarded httpx policy world url since (requestHeaders credential)) []
      (fetch httpx policy world fuel url since credential)
      fun h' bundle => bundle.document.length = keptBytes h' := by
  rw [fetch]
  refine Meets.lift fun checked hchecked => Meets.emit trivial ?_
  refine meets_follow (.start hchecked) ?_ ?_ (Nat.zero_le _) rfl
  · exact ⟨url, checked, List.mem_cons_self, hchecked, .inr rfl⟩
  · simp [requests, FetchEvent.isRequest]

end Meets

/-! ### Termination -/

/-- The bytes a read decodes to. -/
def Piece.size : Piece → ℕ
  | chunk bytes _ => bytes.length
  | _ => 0

/-- The body does not end with a read. -/
def Piece.GoesOn (piece : Piece) : Prop := piece ≠ .ended ∧ piece ≠ .broken

/-- The bytes the first reads decode to. -/
def bytesBefore (body : ℕ → Piece) (i : ℕ) : ℕ := ((List.range i).map fun j => (body j).size).sum

/-- An answer that is read, and whose body from some read on decodes to nothing and has no end, when
it has come to no more than the limit. -/
structure Response.Stalls (policy : FetchPolicy) (response : Response) : Prop where
  acceptable : response.Acceptable
  fits : response.Fits policy
  silent : ∃ i, (∀ j, i ≤ j → response.body j = .nothing) ∧
    (∀ j < i, (response.body j).GoesOn) ∧ bytesBefore response.body i ≤ policy.maxBytes

section Stream

variable {body : ℕ → Piece} {attempt fuel i n : ℕ} {url : String} {chunks : List Bytes}

theorem bytesBefore_succ (body : ℕ → Piece) (i : ℕ) :
    bytesBefore body (i + 1) = bytesBefore body i + (body i).size := by
  simp [bytesBefore, List.range_succ]

theorem bytesBefore_mono (body : ℕ → Piece) : Monotone (bytesBefore body) :=
  monotone_nat_of_le_succ fun i => by
    rw [bytesBefore_succ]
    exact Nat.le_add_right _ _

theorem stream_nothing {size : ℕ} (hnothing : ∀ k < n, body (i + k) = .nothing) :
    stream policy attempt url body (fuel + n) i chunks size =
        (stream policy attempt url body fuel (i + n) chunks size : Client Url _) ∧
      bytesBefore body (i + n) = bytesBefore body i := by
  induction n generalizing fuel with
  | zero => exact ⟨rfl, rfl⟩
  | succ n ih =>
      obtain ⟨hstream, hbytes⟩ := @ih (fuel + 1) fun k hk => hnothing k (Nat.lt_succ_of_lt hk)
      have hlast := hnothing n (Nat.lt_succ_self n)
      constructor
      · have hfuel : fuel + (n + 1) = fuel + 1 + n := by omega
        rw [hfuel, hstream, stream, hlast]
        rfl
      · rw [← Nat.add_assoc, bytesBefore_succ, hlast, hbytes]
        rfl

theorem goesOn_of_lt_succ (hbefore : ∀ j < i, (body j).GoesOn) (hlast : (body i).GoesOn) :
    ∀ j < i + 1, (body j).GoesOn := by
  intro j hj
  rcases Nat.lt_succ_iff_lt_or_eq.1 hj with hj | rfl
  · exact hbefore j hj
  · exact hlast

theorem goesOn_of_nothing (hbefore : ∀ j < i, (body j).GoesOn)
    (hnothing : ∀ k < n, body (i + k) = .nothing) : ∀ j < i + n, (body j).GoesOn := by
  intro j hj
  by_cases hji : j < i
  · exact hbefore j hji
  · obtain ⟨k, rfl⟩ := Nat.exists_eq_add_of_le (not_lt.1 hji)
    rw [hnothing k (by omega)]
    exact ⟨nofun, nofun⟩

/-- The next read that is heard of, in a stream that does not fall silent. -/
theorem exists_heard
    (hheard : ¬ ∃ i, (∀ j, i ≤ j → body j = .nothing) ∧ (∀ j < i, (body j).GoesOn) ∧
      bytesBefore body i ≤ policy.maxBytes)
    (hbefore : ∀ j < i, (body j).GoesOn) (hsize : bytesBefore body i ≤ policy.maxBytes) :
    ∃ n, body (i + n) ≠ .nothing ∧ ∀ k < n, body (i + k) = .nothing := by
  have hnext : ∃ n, body (i + n) ≠ .nothing := by
    by_contra hnone
    push Not at hnone
    refine hheard ⟨i, fun j hj => ?_, hbefore, hsize⟩
    obtain ⟨k, rfl⟩ := Nat.exists_eq_add_of_le hj
    exact hnone k
  classical
  exact ⟨Nat.find hnext, Nat.find_spec hnext, fun k hk => not_not.1 (Nat.find_min hnext hk)⟩

/-- **A stream that does not fall silent ends**: each chunk brings it nearer to the limit, and only
finitely many reads come before the next. -/
theorem finishes_stream
    (hheard : ¬ ∃ i, (∀ j, i ≤ j → body j = .nothing) ∧ (∀ j < i, (body j).GoesOn) ∧
      bytesBefore body i ≤ policy.maxBytes)
    (hbefore : ∀ j < i, (body j).GoesOn) (hsize : bytesBefore body i ≤ policy.maxBytes) :
    ∃ enough, ∀ fuel, enough ≤ fuel → ∀ chunks : List Bytes,
      (stream policy attempt url body fuel i chunks (bytesBefore body i) :
        Client Url _).Finishes := by
  -- the induction is on the bytes that are left
  induction hleft : policy.maxBytes - bytesBefore body i using Nat.strong_induction_on
    generalizing i with
  | _ left ih =>
      obtain ⟨n, hfirst, hnothing⟩ := exists_heard hheard hbefore hsize
      have hbytes : bytesBefore body (i + n) = bytesBefore body i :=
        (@stream_nothing Url policy body attempt 0 i n url [] 0 hnothing).2
      suffices henough : ∃ enough, ∀ fuel, enough ≤ fuel → ∀ chunks : List Bytes,
          (stream policy attempt url body (fuel + 1) (i + n) chunks (bytesBefore body i) :
            Client Url _).Finishes by
        obtain ⟨enough, henough⟩ := henough
        refine ⟨enough + 1 + n, fun fuel hfuel chunks => ?_⟩
        obtain ⟨more, rfl⟩ := Nat.exists_eq_add_of_le hfuel
        have hsplit : enough + 1 + n + more = enough + more + 1 + n := by omega
        rw [hsplit, (stream_nothing hnothing).1]
        exact henough _ (Nat.le_add_right _ _) chunks
      cases hpiece : body (i + n) with
      | nothing => exact absurd hpiece hfirst
      | ended => exact ⟨0, fun fuel _ chunks => by rw [stream, hpiece]; exact nofun⟩
      | broken => exact ⟨0, fun fuel _ chunks => by rw [stream, hpiece]; exact nofun⟩
      | chunk bytes hnonempty =>
          have hlength := List.length_pos_iff.2 hnonempty
          have hgrown : bytesBefore body (i + n + 1) = bytesBefore body i + bytes.length := by
            rw [bytesBefore_succ, hbytes, hpiece]
            rfl
          by_cases hlarge : policy.maxBytes < bytesBefore body i + bytes.length
          · refine ⟨0, fun fuel _ chunks => ?_⟩
            rw [stream, hpiece]
            refine Finishes.emit ?_
            rw [if_pos hlarge]
            exact nofun
          · have hlast : (body (i + n)).GoesOn := by
              rw [hpiece]
              exact ⟨nofun, nofun⟩
            obtain ⟨enough, henough⟩ := ih (policy.maxBytes - bytesBefore body (i + n + 1))
              (by omega) (goesOn_of_lt_succ (goesOn_of_nothing hbefore hnothing) hlast) (by omega)
              rfl
            refine ⟨enough, fun fuel hfuel chunks => ?_⟩
            rw [stream, hpiece]
            refine Finishes.emit ?_
            rw [if_neg hlarge, ← hgrown]
            exact Finishes.emit (henough fuel hfuel _)

/-- **A stream that falls silent goes on for ever.** -/
theorem not_finishes_stream {silent : ℕ} (hsilent : ∀ j, silent ≤ j → body j = .nothing)
    (hgoes : ∀ j < silent, (body j).GoesOn) (hsize : bytesBefore body silent ≤ policy.maxBytes)
    (fuel i : ℕ) (chunks : List Bytes) :
    ¬ (stream policy attempt url body fuel i chunks (bytesBefore body i) :
      Client Url _).Finishes := by
  induction fuel generalizing i chunks with
  | zero => exact fun h => h rfl
  | succ fuel ih =>
      have hnext := ih (i + 1)
      rw [bytesBefore_succ] at hnext
      rw [stream]
      by_cases hi : silent ≤ i
      · have hpiece := hsilent i hi
        rw [hpiece] at hnext ⊢
        exact hnext chunks
      · obtain ⟨hended, hbroken⟩ := hgoes i (not_le.1 hi)
        cases hpiece : body i with
        | nothing =>
            rw [hpiece] at hnext
            exact hnext chunks
        | ended => exact absurd hpiece hended
        | broken => exact absurd hpiece hbroken
        | chunk bytes hnonempty =>
            have hwithin : bytesBefore body (i + 1) ≤ bytesBefore body silent :=
              bytesBefore_mono body (by omega)
            rw [bytesBefore_succ, hpiece] at hwithin
            rw [hpiece] at hnext
            have hfits : ¬ policy.maxBytes < bytesBefore body i + bytes.length :=
              not_lt.2 (hwithin.trans hsize)
            intro hfinishes
            refine hnext (chunks ++ [bytes]) ?_
            have hrest : (if policy.maxBytes < bytesBefore body i + bytes.length then _ else _ :
                Client Url (List Bytes)).Finishes := hfinishes
            rw [if_neg hfits] at hrest
            exact hrest

end Stream

section Ends

variable {url : String} {since credential : Option String} {headers : List (String × String)}
  {attempt fuel : ℕ} {response : Response} {target next : Url}

theorem finishes_read (hfinal : response.isRedirect = false) (hheard : ¬ response.Stalls policy) :
    ∃ enough, ∀ fuel, enough ≤ fuel →
      (read httpx policy fuel attempt response target).Finishes := by
  by_cases hread : response.Acceptable ∧ response.Fits policy
  · obtain ⟨hacceptable, hfits⟩ := hread
    obtain ⟨enough, henough⟩ := @finishes_stream Url policy response.body attempt 0
      (httpx.text target) (fun hsilent => hheard ⟨hacceptable, hfits, hsilent⟩) (by simp)
      (Nat.zero_le _)
    refine ⟨enough, fun fuel hfuel => finishes_finallyEmit_iff.2 ?_⟩
    split
    · exact nofun
    · exact Finishes.lift fun contentType _ => Finishes.emit <| Finishes.lift fun _ _ =>
        (henough fuel hfuel []).bind fun _ _ => nofun
  · refine ⟨0, fun fuel _ => finishes_finallyEmit_iff.2 ?_⟩
    split
    · exact nofun
    · rename_i hstatus
      refine Finishes.lift fun contentType hcontent => Finishes.emit <| Finishes.lift fun _ hok => ?_
      obtain ⟨hjson, -⟩ := checkContentType_eq_ok_iff.1 hcontent
      exact absurd ⟨⟨hfinal, not_le.1 hstatus, hjson⟩, checkDeclared_eq_ok_iff.1 hok⟩ hread

theorem not_finishes_read (hstalls : response.Stalls policy) :
    ¬ (read httpx policy fuel attempt response target).Finishes := by
  obtain ⟨⟨-, hstatus, hjson⟩, hfits, silent, hsilent, hgoes, hsize⟩ := hstalls
  intro hfinishes
  have hhead := finishes_finallyEmit_iff.1 hfinishes
  rw [if_neg (not_le.2 hstatus), checkContentType_eq_ok_iff.2 ⟨hjson, rfl⟩] at hhead
  have hbody : (readBody policy fuel attempt response (httpx.text target)
      (mediaType response) : Client Url _).Finishes := hhead
  rw [readBody, checkDeclared_eq_ok_iff.2 hfits] at hbody
  have hrest : (stream policy attempt (httpx.text target) response.body fuel 0 [] 0 >>= fun chunks =>
      pure { document := chunks.flatten, url := httpx.text target,
             contentType := mediaType response } : Client Url FetchedBundle).Finishes := hbody
  exact not_finishes_stream hsilent hgoes hsize fuel 0 [] hrest.of_bind

theorem finishes_nextHop (hanswer : world.answer attempt = .ok response)
    (hredirect : response.isRedirect = true) :
    (nextHop httpx policy world response target (httpx.host target) (attempt + 1)).Finishes ∧
      ∀ next, (nextHop httpx policy world response target (httpx.host target)
        (attempt + 1)).outcome = .returned next →
          Redirected httpx policy world attempt target next := by
  constructor
  · rw [nextHop]
    split
    · exact nofun
    · split
      · exact nofun
      · split
        · exact nofun
        · exact Finishes.lift fun _ _ => nofun
  · exact fun next hnext => ((@meets_nextHop Url httpx policy world "" none [] [] attempt response
      target hanswer hredirect).returns next hnext).2

/-- **The loop of `fetch` ends** where no answer that is reached falls silent. -/
theorem finishes_follow
    (hheard : ∀ attempt target response, Reached httpx policy world url since attempt target →
      world.answer attempt = .ok response → ¬ response.Stalls policy)
    (hreached : Reached httpx policy world url since attempt target) :
    ∃ enough, ∀ fuel, enough ≤ fuel →
      (follow httpx policy world (httpx.host target) headers fuel attempt target).Finishes := by
  -- the induction is on the redirects that are left
  induction hleft : policy.maxRedirects + 1 - attempt using Nat.strong_induction_on
    generalizing attempt target with
  | _ left ih =>
      cases hanswer : world.answer attempt with
      | error message =>
          refine ⟨1, fun fuel hfuel => ?_⟩
          obtain ⟨more, rfl⟩ := Nat.exists_eq_add_of_le' hfuel
          rw [follow, send, hanswer]
          exact nofun
      | ok response =>
          suffices henough : ∃ enough, ∀ fuel, enough ≤ fuel →
              (if response.isRedirect then do
                  emit (.closed attempt)
                  let nxt ← nextHop httpx policy world response target (httpx.host target)
                    (attempt + 1)
                  follow httpx policy world (httpx.host target) headers fuel (attempt + 1) nxt
                else read httpx policy (fuel + 1) attempt response target :
                  Client Url FetchedBundle).Finishes by
            obtain ⟨enough, henough⟩ := henough
            refine ⟨enough + 1, fun fuel hfuel => ?_⟩
            obtain ⟨more, rfl⟩ := Nat.exists_eq_add_of_le hfuel
            rw [Nat.add_right_comm, follow, send, hanswer]
            exact henough _ (Nat.le_add_right _ _)
          cases hredirect : response.isRedirect with
          | true =>
              obtain ⟨hends, hleads⟩ := @finishes_nextHop Url httpx policy world attempt response
                target hanswer hredirect
              cases houtcome : (nextHop httpx policy world response target (httpx.host target)
                  (attempt + 1)).outcome with
              | running => exact absurd houtcome hends
              | raised error =>
                  refine ⟨0, fun fuel _ => ?_⟩
                  rw [if_pos rfl]
                  exact Finishes.emit (hends.bind fun next hnext => by
                    rw [houtcome] at hnext
                    cases hnext)
              | returned next =>
                  have hnext := hleads next houtcome
                  obtain ⟨_, -, -, hbound, -, hhost, -⟩ := id hnext
                  obtain ⟨enough, henough⟩ := ih (policy.maxRedirects + 1 - (attempt + 1))
                    (by omega) (hreached.hop hnext) rfl
                  rw [hhost] at henough
                  refine ⟨enough, fun fuel hfuel => ?_⟩
                  rw [if_pos rfl]
                  refine Finishes.emit (hends.bind fun next' hnext' => ?_)
                  rw [houtcome] at hnext'
                  cases hnext'
                  exact henough fuel hfuel
          | false =>
              obtain ⟨enough, henough⟩ := finishes_read hredirect
                (hheard attempt target response hreached hanswer)
              refine ⟨enough, fun fuel hfuel => ?_⟩
              rw [if_neg Bool.false_ne_true]
              exact henough _ (hfuel.trans (Nat.le_succ _))

theorem follow_of_redirected (h : Redirected httpx policy world attempt target next) :
    follow httpx policy world (httpx.host target) headers (fuel + 1) attempt target =
      ⟨[.requested attempt target headers, .closed attempt,
          .checked (attempt + 1) (httpx.text next)] ++
        (follow httpx policy world (httpx.host next) headers fuel (attempt + 1) next).events,
        (follow httpx policy world (httpx.host next) headers fuel (attempt + 1) next).outcome⟩ := by
  obtain ⟨response, hanswer, hredirect, hbound, hjoin, hhost, checked, hchecked⟩ := h
  have hhop : nextHop httpx policy world response target (httpx.host target) (attempt + 1) =
      ⟨[.checked (attempt + 1) (httpx.text next)], .returned next⟩ := by
    rw [nextHop, if_neg (not_lt.2 hbound), hjoin]
    simp only [hhost, ne_eq, not_true_eq_false, if_false, hchecked]
    rfl
  have hround : (if response.isRedirect = true then do
        emit (.closed attempt)
        let nxt ← nextHop httpx policy world response target (httpx.host target) (attempt + 1)
        follow httpx policy world (httpx.host target) headers fuel (attempt + 1) nxt
      else read httpx policy (fuel + 1) attempt response target : Client Url FetchedBundle) =
      ⟨[.closed attempt, .checked (attempt + 1) (httpx.text next)] ++
        (follow httpx policy world (httpx.host next) headers fuel (attempt + 1) next).events,
        (follow httpx policy world (httpx.host next) headers fuel (attempt + 1) next).outcome⟩ := by
    rw [if_pos hredirect, hhop, hhost]
    rfl
  rw [follow, send, hanswer]
  exact congrArg (fun round : Client Url FetchedBundle =>
    (⟨.requested attempt target headers :: round.events, round.outcome⟩ :
      Client Url FetchedBundle)) hround

/-- **A fetch goes on for ever** where an answer that is reached falls silent. -/
theorem not_finishes_fetch (hreached : Reached httpx policy world url since attempt target)
    (hanswer : world.answer attempt = .ok response) (hstalls : response.Stalls policy) (fuel : ℕ) :
    ¬ (fetch httpx policy world fuel url since credential).Finishes := by
  suffices hloop : ∀ attempt target, Reached httpx policy world url since attempt target →
      (∀ fuel, ¬ (follow httpx policy world (httpx.host target) (requestHeaders credential) fuel
        attempt target).Finishes) →
      ∀ fuel, ¬ (fetch httpx policy world fuel url since credential).Finishes by
    refine hloop attempt target hreached (fun fuel hfinishes => ?_) fuel
    cases fuel with
    | zero => exact hfinishes rfl
    | succ fuel =>
        rw [follow, send, hanswer] at hfinishes
        have hround : (if response.isRedirect = true then _ else
            read httpx policy (fuel + 1) attempt response target :
              Client Url FetchedBundle).Finishes := hfinishes
        rw [if_neg (by simp [hstalls.acceptable.1])] at hround
        exact not_finishes_read hstalls hround
  intro attempt target hreached
  induction hreached with
  | start hchecked =>
      intro hfollow fuel hfinishes
      rw [fetch, hchecked] at hfinishes
      exact hfollow fuel hfinishes
  | hop _ hnext ih =>
      refine fun hfollow => ih fun fuel hfinishes => ?_
      cases fuel with
      | zero => exact hfinishes rfl
      | succ fuel =>
          rw [follow_of_redirected hnext] at hfinishes
          exact hfollow fuel hfinishes

end Ends

/-! ### The guards -/

section Guards

variable {url : String} {since credential : Option String} {fuel : ℕ}
  {headers : List (String × String)} {h events : List (FetchEvent Url)}

theorem Passed.origin {attempt : ℕ} {target : Url} (hlawful : httpx.Lawful)
    (hpassed : Passed httpx policy world since h attempt target) :
    ∃ text checked, .checked attempt text ∈ h ∧
      checkUrl httpx policy (world.resolve attempt) text = .ok checked ∧
      httpx.origin checked = httpx.origin target ∧
      (text = httpx.text target ∨ target = firstTarget httpx checked since) := by
  obtain ⟨text, checked, hin, hchecked, htarget⟩ := hpassed
  refine ⟨text, checked, hin, hchecked, ?_, htarget⟩
  obtain rfl | rfl := htarget
  · exact hlawful.text_origin target checked (checkUrl_eq_ok_iff.1 hchecked).1
  · exact (firstTarget_origin hlawful checked since).symm

theorem keptBytes_le (hevents : Permitted (Guarded httpx policy world url since headers) [] events) :
    keptBytes events ≤ policy.maxBytes := by
  refine hevents.bounded (h := []) (fun h e hh he => ?_) (Nat.zero_le _)
  cases e with
  | kept chunk => simpa [Guarded, FetchEvent.keeps] using he
  | _ => simpa [FetchEvent.keeps] using hh

theorem requests_le (hevents : Permitted (Guarded httpx policy world url since headers) [] events) :
    requests events ≤ policy.maxRedirects + 1 := by
  refine hevents.bounded (h := []) (fun h e hh he => ?_) (Nat.zero_le _)
  cases e with
  | requested attempt target sent =>
      obtain ⟨-, -, hcount, hbound, -⟩ := he
      simpa [FetchEvent.isRequest, hcount] using hbound
  | _ => simpa [FetchEvent.isRequest] using hh

theorem received_accepted
    (hevents : Permitted (Guarded httpx policy world url since headers) [] events)
    {before after : List (FetchEvent Url)} {attempt : ℕ} {chunk : Bytes}
    (heq : events = before ++ .received attempt chunk :: after) :
    ∃ response, world.answer attempt = .ok response ∧ response.Acceptable ∧
      .accepted attempt (mediaType response) ∈ before := by
  obtain ⟨contentType, haccepted⟩ := hevents.split heq
  rw [List.nil_append] at haccepted
  obtain ⟨before', between, rfl⟩ := List.append_of_mem haccepted
  rw [List.append_assoc, List.cons_append] at heq
  obtain ⟨response, hanswer, hacceptable, rfl⟩ := hevents.split heq
  exact ⟨response, hanswer, hacceptable, haccepted⟩

/-- What is promised of a fetch: every URL that is requested was checked, in its own text or as the
URL of the same origin whose export endpoint it is; `max_redirects + 1` requests are made at most, and
`max_bytes` bytes are kept at most; a body is read after its status and its content type were
accepted; and the fetch ends. -/
structure FetchGuarded (httpx : Httpx Url) (policy : FetchPolicy) (world : World) (url : String)
    (since credential : Option String) : Prop where
  checked : ∀ fuel before after attempt target sent,
    (fetch httpx policy world fuel url since credential).events =
        before ++ .requested attempt target sent :: after →
      ∃ text checked, .checked attempt text ∈ before ∧
        checkUrl httpx policy (world.resolve attempt) text = .ok checked ∧
        httpx.origin checked = httpx.origin target ∧
        (text = httpx.text target ∨ target = firstTarget httpx checked since)
  requests : ∀ fuel, requests (fetch httpx policy world fuel url since credential).events ≤
    policy.maxRedirects + 1
  kept : ∀ fuel,
    keptBytes (fetch httpx policy world fuel url since credential).events ≤ policy.maxBytes
  returned : ∀ fuel bundle,
    (fetch httpx policy world fuel url since credential).outcome = .returned bundle →
      bundle.document.length ≤ policy.maxBytes
  accepted : ∀ fuel before after attempt chunk,
    (fetch httpx policy world fuel url since credential).events =
        before ++ .received attempt chunk :: after →
      ∃ response, world.answer attempt = .ok response ∧ response.Acceptable ∧
        .accepted attempt (mediaType response) ∈ before
  ends : ∃ enough, ∀ fuel, enough ≤ fuel →
    (fetch httpx policy world fuel url since credential).Finishes

/-- **A fetch is bounded and guarded**, whatever the server answers and the names resolve to, exactly
where no answer that is reached falls silent within the limit. -/
theorem fetch_guarded_iff (hlawful : httpx.Lawful) :
    FetchGuarded httpx policy world url since credential ↔
      ∀ attempt target response, Reached httpx policy world url since attempt target →
        world.answer attempt = .ok response → ¬ response.Stalls policy := by
  constructor
  · intro hguarded attempt target response hreached hanswer hstalls
    obtain ⟨enough, henough⟩ := hguarded.ends
    exact not_finishes_fetch hreached hanswer hstalls enough (henough enough le_rfl)
  · intro hheard
    have hmeets : ∀ fuel, Meets (Guarded httpx policy world url since (requestHeaders credential)) []
        (fetch httpx policy world fuel url since credential)
        fun h' bundle => bundle.document.length = keptBytes h' := fun fuel => meets_fetch
    refine ⟨?_, fun fuel => requests_le (hmeets fuel).permitted,
      fun fuel => keptBytes_le (hmeets fuel).permitted, ?_, ?_, ?_⟩
    · intro fuel before after attempt target sent heq
      obtain ⟨-, hpassed, -⟩ := (hmeets fuel).permitted.split heq
      exact hpassed.origin hlawful
    · intro fuel bundle hbundle
      rw [(hmeets fuel).returns bundle hbundle]
      exact keptBytes_le (hmeets fuel).permitted
    · intro fuel before after attempt chunk heq
      exact received_accepted (hmeets fuel).permitted heq
    · cases hchecked : checkUrl httpx policy (world.resolve 0) url with
      | error error =>
          refine ⟨0, fun fuel _ => ?_⟩
          rw [fetch, hchecked]
          exact nofun
      | ok checked =>
          obtain ⟨enough, henough⟩ := finishes_follow hheard (.start hchecked)
          refine ⟨enough, fun fuel hfuel => ?_⟩
          rw [fetch, hchecked]
          exact henough fuel hfuel

end Guards

/-! ### A source on this machine -/

/-- Three URLs. -/
inductive LocalUrl where
  | source
  | exported
  /-- The same host at another port. -/
  | elsewhere
deriving DecidableEq

def LocalUrl.text : LocalUrl → String
  | source => "http://127.0.0.1:8765"
  | exported => "http://127.0.0.1:8765/api/v1/evidence/export"
  | elsewhere => "http://127.0.0.1:9999/export"

/-- The library at these URLs. -/
def localHttpx : Httpx LocalUrl where
  parse := fun text => [.source, .exported, .elsewhere].find? fun url => url.text == text
  text := LocalUrl.text
  scheme := fun _ => "http"
  host := fun _ => "127.0.0.1"
  port := fun url => some (if url = .elsewhere then 9999 else 8765)
  path := fun url => match url with
    | .source => "/"
    | .exported => evidenceExportPath
    | .elsewhere => "/export"
  withPath := fun url path =>
    if url = .source ∧ path = evidenceExportPath then .exported else url
  setParam := fun url _ _ => url
  join := fun _ location => [.source, .exported, .elsewhere].find? fun url => url.text == location
  repr := fun text => s!"'{text}'"
  address := fun _ => "127.0.0.1"

theorem localHttpx_lawful : localHttpx.Lawful where
  text_origin := by
    intro url url' hparse
    have hsame : url.text = url'.text := by
      have hfound := List.find?_some hparse
      exact (beq_iff_eq.1 hfound).symm
    cases url <;> cases url' <;> first | rfl | exact absurd hsame (by decide)
  withPath_origin := by
    intro url path
    change localHttpx.origin (if _ then _ else url) = _
    split
    · rename_i hsource
      rw [hsource.1]
      rfl
    · rfl
  setParam_origin := fun _ _ _ => rfl

/-- Two bytes of JSON. -/
def emptyBundle : Response where
  status := 200
  header := fun name => if name = "content-type" then some "application/json" else none
  body := fun i => if i = 0 then .chunk [0x7b, 0x7d] (List.cons_ne_nil _ _) else .ended

/-- An answer to another request. -/
def redirectTo (location : String) : Response where
  status := 307
  header := fun name => if name = "location" then some location else none
  body := fun _ => .ended

/-- A source that moved within its origin. -/
def movedWorld : World where
  resolve := fun _ _ => []
  answer := fun attempt =>
    .ok (if attempt = 0 then redirectTo "http://127.0.0.1:8765/api/v1/evidence/export"
      else emptyBundle)

def localPolicy : FetchPolicy := { allowedHosts := ["127.0.0.1"], maxBytes := 16 }

/-- Two requests, and two bytes. -/
theorem fetch_guarded_iff_moved :
    FetchGuarded localHttpx localPolicy movedWorld "http://127.0.0.1:8765" none none ∧
      keptBytes
        (fetch localHttpx localPolicy movedWorld 24 "http://127.0.0.1:8765" none none).events = 2 := by
  refine ⟨(fetch_guarded_iff localHttpx_lawful).2 ?_, by decide +kernel⟩
  intro attempt target response _ hanswer hstalls
  obtain ⟨i, hsilent, -⟩ := hstalls.silent
  have hended : response.body (i + 1) = .ended := by
    cases hanswer
    split <;> rfl
  have hnothing := hsilent (i + 1) (Nat.le_succ i)
  rw [hended] at hnothing
  cases hnothing

/-- A source whose body is of compressed blocks that hold no bytes, one after another. -/
def silentWorld : World where
  resolve := fun _ _ => []
  answer := fun _ => .ok { emptyBundle with body := fun _ => .nothing }

/-- No read of it is cut off, and none is the last. -/
theorem fetch_unguarded :
    ¬ FetchGuarded localHttpx localPolicy silentWorld "http://127.0.0.1:8765" none none := by
  intro hguarded
  have hchecked : checkUrl localHttpx localPolicy (silentWorld.resolve 0) "http://127.0.0.1:8765" =
      .ok .source := by
    refine checkUrl_eq_ok_iff.2 ⟨rfl, ?_, ?_, ?_, ?_⟩ <;> decide +kernel
  obtain ⟨enough, henough⟩ := hguarded.ends
  refine not_finishes_fetch (.start hchecked) rfl ⟨⟨rfl, by decide, by decide +kernel⟩, nofun, 0,
    fun _ _ => rfl, fun _ hj => absurd hj (Nat.not_lt_zero _), Nat.zero_le _⟩ enough
    (henough enough le_rfl)

end LoadCoach.Fetch
