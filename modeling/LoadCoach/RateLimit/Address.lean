import LoadCoach.Foundations.IpAddress

/-! # The address of a client behind a proxy

`web/rate_limit.py`, `resolve_client_address`: from a peer that is a trusted proxy, the client is
the last hop of `X-Forwarded-For` that is not one.

Proxies append to that header, in its line or in a line of their own, but `Headers.get` reads one
line: `resolveClientAddress_eq_iff` says when the hop it yields is the last of all lines. -/

namespace LoadCoach.RateLimit

open Foundations

/-! ### Headers -/

/-- The header lines of a request, in order; their names are in lower case. -/
abbrev Headers := List (String × String)

/-- `Headers.get`: the first line of a name. -/
def Headers.get (headers : Headers) (name default : String) : String :=
  ((headers.find? fun line => line.1 == name).map Prod.snd).getD default

/-- All lines of a name. -/
def Headers.lines (headers : Headers) (name : String) : List String :=
  (headers.filter fun line => line.1 == name).map Prod.snd

theorem Headers.get_eq (headers : Headers) (name default : String) :
    headers.get name default = ((headers.lines name).head?).getD default := by
  rw [Headers.get, Headers.lines, List.head?_map, List.head?_filter]

/-! ### The resolver -/

/-- `_in_networks`. -/
def inNetworks (address : String) (networks : List IpNetwork) : Bool :=
  match ipAddress address with
  | none => false
  | some parsed => networks.any fun network => network.contains parsed

/-- The hops of one line of the header. -/
def hopsOf (forwarded : String) : List String :=
  ((split ',' forwarded).map strip).filter (· ≠ "")

/-- The last hop that is not a trusted proxy. -/
def lastUntrusted (trustedProxies : List IpNetwork) (hops : List String) : Option String :=
  hops.reverse.find? fun entry => !inNetworks entry trustedProxies

/-- `resolve_client_address`. -/
def resolveClientAddress (peer : Option String) (headers : Headers)
    (trustedProxies : List IpNetwork) : Option String :=
  match peer with
  | none => none
  | some peer =>
      if trustedProxies.isEmpty || !inNetworks peer trustedProxies then some peer
      else
        match lastUntrusted trustedProxies (hopsOf (headers.get "x-forwarded-for" "")) with
        | some entry => some entry
        | none => some peer

/-! ### All lines -/

/-- The hops of all lines, in order. -/
def forwardedHops (headers : Headers) : List String :=
  (headers.lines "x-forwarded-for").flatMap hopsOf

/-- The hops of the lines after the first. -/
def laterHops (headers : Headers) : List String :=
  (headers.lines "x-forwarded-for").tail.flatMap hopsOf

section Hops

variable {trustedProxies : List IpNetwork} {headers headers' : Headers} {peer : String}
  {hops hops' own : List String}

theorem lastUntrusted_append :
    lastUntrusted trustedProxies (hops ++ hops') =
      (lastUntrusted trustedProxies hops').or (lastUntrusted trustedProxies hops) := by
  rw [lastUntrusted, List.reverse_append, List.find?_append, lastUntrusted, lastUntrusted]

theorem hopsOf_empty : hopsOf "" = [] := by decide

theorem forwardedHops_eq :
    forwardedHops headers = hopsOf (headers.get "x-forwarded-for" "") ++ laterHops headers := by
  rw [Headers.get_eq, forwardedHops, laterHops]
  cases headers.lines "x-forwarded-for" with
  | nil => simp [hopsOf_empty]
  | cons line lines => rfl

theorem not_inNetworks_of_lastUntrusted {entry : String}
    (h : lastUntrusted trustedProxies hops = some entry) :
    inNetworks entry trustedProxies = false := by
  have hfound := List.find?_some h
  simpa using hfound

theorem resolveClientAddress_of_trusted (hpeer : inNetworks peer trustedProxies = true) :
    resolveClientAddress (some peer) headers trustedProxies =
      some ((lastUntrusted trustedProxies
        (hopsOf (headers.get "x-forwarded-for" ""))).getD peer) := by
  have hsome : trustedProxies.isEmpty = false := by
    cases trustedProxies with
    | nil =>
        rw [inNetworks] at hpeer
        split at hpeer <;> cases hpeer
    | cons network networks => rfl
  rw [resolveClientAddress, hsome, hpeer]
  cases lastUntrusted trustedProxies (hopsOf (headers.get "x-forwarded-for" "")) <;> rfl

/-- **The lines after the first change nothing**: they name no untrusted hop, or end on the one the
first line ends on. -/
def LaterLinesAgree (trustedProxies : List IpNetwork) (headers : Headers) : Prop :=
  lastUntrusted trustedProxies (laterHops headers) = none ∨
    lastUntrusted trustedProxies (laterHops headers) =
      lastUntrusted trustedProxies (hopsOf (headers.get "x-forwarded-for" ""))

/-- **The client's address is the last untrusted hop of all lines** exactly where the lines after
the first change nothing. -/
theorem resolveClientAddress_eq_iff (hpeer : inNetworks peer trustedProxies = true) :
    resolveClientAddress (some peer) headers trustedProxies =
        some ((lastUntrusted trustedProxies (forwardedHops headers)).getD peer) ↔
      LaterLinesAgree trustedProxies headers := by
  rw [resolveClientAddress_of_trusted hpeer, forwardedHops_eq, lastUntrusted_append,
    LaterLinesAgree, Option.some.injEq]
  cases hlater : lastUntrusted trustedProxies (laterHops headers) with
  | none => simp
  | some entry =>
      rw [Option.some_or, Option.getD_some]
      cases hfirst : lastUntrusted trustedProxies
          (hopsOf (headers.get "x-forwarded-for" "")) with
      | none =>
          -- the peer is trusted, and the entry is not
          have hne : peer ≠ entry := by
            rintro rfl
            rw [not_inNetworks_of_lastUntrusted hlater] at hpeer
            cases hpeer
          simp [hne]
      | some first => simp [eq_comm]

theorem lastUntrusted_of_suffix (hown : lastUntrusted trustedProxies own ≠ none)
    (hsuffix : own <:+ hops) : lastUntrusted trustedProxies hops =
      lastUntrusted trustedProxies own := by
  obtain ⟨client, rfl⟩ := hsuffix
  obtain ⟨entry, hentry⟩ := Option.ne_none_iff_exists'.1 hown
  rw [lastUntrusted_append, hentry, Option.some_or]

/-- **No client forges its address** where the lines after the first change nothing: it is the last
untrusted hop of all lines, so that two requests that end on the same hops of the proxies resolve
alike, whatever stands before these. -/
theorem clientAddress_unforged (hpeer : inNetworks peer trustedProxies = true) :
    (∀ headers, resolveClientAddress (some peer) headers trustedProxies =
        some ((lastUntrusted trustedProxies (forwardedHops headers)).getD peer) ↔
      LaterLinesAgree trustedProxies headers) ∧
    ∀ own headers headers', lastUntrusted trustedProxies own ≠ none →
      own <:+ forwardedHops headers → own <:+ forwardedHops headers' →
      LaterLinesAgree trustedProxies headers → LaterLinesAgree trustedProxies headers' →
      resolveClientAddress (some peer) headers trustedProxies =
        resolveClientAddress (some peer) headers' trustedProxies := by
  refine ⟨fun headers => resolveClientAddress_eq_iff hpeer, ?_⟩
  intro own headers headers' hown hsuffix hsuffix' hagree hagree'
  rw [(resolveClientAddress_eq_iff hpeer).2 hagree, (resolveClientAddress_eq_iff hpeer).2 hagree',
    lastUntrusted_of_suffix hown hsuffix, lastUntrusted_of_suffix hown hsuffix']

end Hops

/-- `10.0.0.0/8`. -/
def privateNetwork : IpNetwork := .v4 0x0a000000 0xff000000

/-- A proxy that appends to the line of the client. -/
theorem clientAddress_one_line :
    resolveClientAddress (some "10.9.9.9")
      [("x-forwarded-for", "203.0.113.5, 198.51.100.7, 10.0.0.2")] [privateNetwork] =
        some "198.51.100.7" :=
  ((clientAddress_unforged (by decide)).1 _).2 (.inl (by decide))

/-- A proxy that adds a line: the line of the client is the one that is read. -/
theorem clientAddress_forged :
    ¬ ∀ headers, resolveClientAddress (some "10.9.9.9") headers [privateNetwork] =
      some ((lastUntrusted [privateNetwork] (forwardedHops headers)).getD "10.9.9.9") := by
  intro hall
  have h := hall [("x-forwarded-for", "203.0.113.5"), ("x-forwarded-for", "198.51.100.7")]
  revert h
  decide

end LoadCoach.RateLimit
