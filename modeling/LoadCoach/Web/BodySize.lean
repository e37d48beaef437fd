import Mathlib.Algebra.Order.Ring.Int
import Mathlib.Data.List.Induction
import LoadCoach.Foundations.Digits
import LoadCoach.RateLimit.Address

/-! # The size of a request body

`web/limits.py`, `BodySizeLimitMiddleware`: a body is refused by the length it declares, or else
while it arrives, and the application that is called within the limit gets the whole body in one
message (`replay`).

The messages of the server come one at a time.  `intake_eq_called_iff` says after which of them the
application is called and with what, `Intake.Counted` how much of the body is kept meanwhile.  The
chunks stay where they are while the application runs on a body joined from them, so that a body of
several chunks is then there twice.

What the middleware promises it keeps exactly where the declared length can be read and there is
room for that copy (`bodyGuarded_iff`). -/

namespace LoadCoach.Web

open Foundations RateLimit

/-! ### Messages -/

/-- What a server hands to an application that receives; an entry it leaves out is `none`. -/
inductive Message where
  | request (body : Option (List UInt8) := none) (moreBody : Option Bool := none)
  | disconnect
deriving DecidableEq

/-- The bytes of the body a message carries. -/
def Message.size : Message → ℕ
  | request body _ => (body.getD []).length
  | disconnect => 0

/-- The chunks of the complete body and the messages after them; `none` while it is not complete,
and for good where the client disconnects first. -/
def completeChunks : List Message → Option (List (List UInt8) × List Message)
  | [] => none
  | .disconnect :: _ => none
  | .request body moreBody :: messages =>
      if moreBody.getD false then
        (completeChunks messages).map fun rest => (body.getD [] :: rest.1, rest.2)
      else some ([body.getD []], messages)

/-- The complete body and the messages after it. -/
def completeBody (messages : List Message) : Option (List UInt8 × List Message) :=
  (completeChunks messages).map fun chunks => (chunks.1.flatten, chunks.2)

/-- The largest of some sizes. -/
def largest (sizes : List ℕ) : ℕ := sizes.foldr max 0

theorem largest_append (sizes sizes' : List ℕ) :
    largest (sizes ++ sizes') = max (largest sizes) (largest sizes') := by
  induction sizes with
  | nil => exact (Nat.zero_max _).symm
  | cons size sizes ih => exact (congrArg (max size) ih).trans (Nat.max_assoc _ _ _).symm

section Chunks

variable {messages later : List Message} {chunks : List (List UInt8)}

theorem completeChunks_append (h : completeChunks messages = some (chunks, later))
    (rest : List Message) :
    completeChunks (messages ++ rest) = some (chunks, later ++ rest) := by
  induction messages generalizing chunks with
  | nil => cases h
  | cons message messages ih =>
      cases message with
      | disconnect => cases h
      | request body moreBody =>
          rw [completeChunks] at h
          rw [List.cons_append, completeChunks]
          cases hmore : moreBody.getD false with
          | true =>
              rw [hmore, if_pos rfl] at h
              obtain ⟨⟨chunks', later'⟩, htail, heq⟩ := Option.map_eq_some_iff.1 h
              cases heq
              rw [if_pos rfl, ih htail]
              rfl
          | false =>
              rw [hmore] at h
              cases h
              rfl

theorem completeChunks_split (h : completeChunks messages = some (chunks, later)) :
    ∃ received, messages = received ++ later ∧ completeChunks received = some (chunks, []) ∧
      received.map Message.size = chunks.map List.length := by
  induction messages generalizing chunks with
  | nil => cases h
  | cons message messages ih =>
      cases message with
      | disconnect => cases h
      | request body moreBody =>
          rw [completeChunks] at h
          cases hmore : moreBody.getD false with
          | true =>
              rw [hmore, if_pos rfl] at h
              obtain ⟨⟨chunks', later'⟩, htail, heq⟩ := Option.map_eq_some_iff.1 h
              cases heq
              obtain ⟨received, rfl, hcomplete, hsizes⟩ := ih htail
              refine ⟨.request body moreBody :: received, rfl, ?_, ?_⟩
              · rw [completeChunks, hmore, if_pos rfl, hcomplete]
                rfl
              · rw [List.map_cons, List.map_cons, hsizes]
                rfl
          | false =>
              rw [hmore] at h
              cases h
              refine ⟨[.request body moreBody], rfl, ?_, rfl⟩
              rw [completeChunks, hmore]
              rfl

end Chunks

/-! ### The middleware -/

/-- What became of a request. -/
inductive Outcome where
  | raised
  /-- `413 PAYLOAD_TOO_LARGE`, with its message. -/
  | rejected (message : String)
  | disconnected
  /-- The application is called on the buffered body. -/
  | called (buffered : List UInt8)
  /-- The application is called with nothing done: it is no request over HTTP. -/
  | passed
deriving DecidableEq

/-- The middleware between two messages: it is still receiving, or it is through and the messages
that come later are left to whoever receives them.  The chunks stay while it answers or the
application runs. -/
inductive Intake where
  | receiving (chunks : List (List UInt8)) (seen : ℕ)
  | ended (outcome : Outcome) (chunks : List (List UInt8)) (later : List Message)
deriving DecidableEq

/-- One round of the loop. -/
def Intake.next (limit : ℕ) : Intake → Message → Intake
  | receiving _ _, .disconnect => ended .disconnected [] []
  | receiving chunks seen, .request body moreBody =>
      let body := body.getD []
      let seen := seen + body.length
      if limit < seen then
        ended (.rejected s!"The request body exceeded {limit} bytes.") (chunks ++ [body]) []
      else if moreBody.getD false then receiving (chunks ++ [body]) seen
      else ended (.called (chunks ++ [body]).flatten) (chunks ++ [body]) []
  | ended outcome chunks later, message => ended outcome chunks (later ++ [message])

/-- The loop, after some messages. -/
def intake (limit : ℕ) (messages : List Message) : Intake :=
  messages.foldl (Intake.next limit) (.receiving [] 0)

/-- What the middleware reads of a scope. -/
structure Scope where
  type : String := "http"
  headers : Headers := []

/-- `headers.get("content-length")`. -/
def Scope.declared (scope : Scope) : Option String :=
  (scope.headers.find? fun line => line.1 == "content-length").map Prod.snd

/-- `_max`. -/
def limitOf (maxBytes : ℤ) : ℕ := (max maxBytes 1).toNat

/-- `BodySizeLimitMiddleware.__call__`, after some messages. -/
def bodySizeLimit (maxBytes : ℤ) (scope : Scope) (messages : List Message) : Intake :=
  let limit := limitOf maxBytes
  if scope.type ≠ "http" then .ended .passed [] messages
  else
    match scope.declared with
    | none => intake limit messages
    | some declared =>
        if isDigits declared then
          match intOfDigits declared with
          | none => .ended .raised [] messages
          | some n =>
              if limit < n then
                .ended (.rejected
                  s!"The request body is {declared} bytes; the limit is {limit}.") [] messages
              else intake limit messages
        else intake limit messages

/-! ### The application's receive -/

/-- The closure `replay`. -/
structure Replay where
  buffered : List UInt8
  delivered : Bool := false
  later : List Message

/-- One receive; `none` while the server has no message. -/
def Replay.receive (replay : Replay) : Option (Message × Replay) :=
  if replay.delivered then
    match replay.later with
    | [] => none
    | message :: later => some (message, { replay with later })
  else some (.request (some replay.buffered) (some false), { replay with delivered := true })

/-- What an application reads that receives so many times. -/
def Replay.reads : ℕ → Replay → List Message
  | 0, _ => []
  | k + 1, replay =>
      match replay.receive with
      | none => []
      | some (message, replay) => message :: replay.reads k

theorem reads_replay (buffered : List UInt8) (later : List Message) (k : ℕ) :
    Replay.reads k { buffered, later } =
      (Message.request (some buffered) (some false) :: later).take k := by
  have hdelivered : ∀ (k : ℕ) (later : List Message),
      Replay.reads k { buffered, delivered := true, later } = later.take k := by
    intro k
    induction k with
    | zero => simp [Replay.reads]
    | succ k ih =>
        intro later
        cases later with
        | nil => simp [Replay.reads, Replay.receive]
        | cons message later => simp [Replay.reads, Replay.receive, ih]
  cases k with
  | zero => rfl
  | succ k => simp [Replay.reads, Replay.receive, hdelivered]

/-! ### The loop -/

section Loop

variable {limit : ℕ} {messages : List Message}

theorem foldl_next_ended (outcome : Outcome) (chunks : List (List UInt8))
    (later messages : List Message) :
    messages.foldl (Intake.next limit) (.ended outcome chunks later) =
      .ended outcome chunks (later ++ messages) := by
  induction messages generalizing later with
  | nil => simp
  | cons message messages ih => simp [Intake.next, ih]

theorem foldl_next_eq_called_iff {chunks chunks' : List (List UInt8)} {seen : ℕ}
    {buffered : List UInt8} {later : List Message} :
    messages.foldl (Intake.next limit) (.receiving chunks seen) =
        .ended (.called buffered) chunks' later ↔
      ∃ more, completeChunks messages = some (more, later) ∧ chunks' = chunks ++ more ∧
        buffered = chunks'.flatten ∧ seen + more.flatten.length ≤ limit := by
  induction messages generalizing chunks seen with
  | nil => simp [completeChunks]
  | cons message messages ih =>
      cases message with
      | disconnect => simp [Intake.next, foldl_next_ended, completeChunks]
      | request body moreBody =>
          rw [List.foldl_cons, Intake.next, completeChunks]
          by_cases hlarge : limit < seen + (body.getD []).length
          · rw [if_pos hlarge, foldl_next_ended]
            refine iff_of_false (by simp) ?_
            rintro ⟨more, hmore, -, -, hle⟩
            split at hmore
            · obtain ⟨rest, -, hrest⟩ := Option.map_eq_some_iff.1 hmore
              obtain ⟨rfl, -⟩ := Prod.mk.inj hrest
              rw [List.flatten_cons, List.length_append] at hle
              omega
            · obtain ⟨rfl, -⟩ := Prod.mk.inj (Option.some.inj hmore)
              rw [List.flatten_singleton] at hle
              omega
          · rw [if_neg hlarge]
            cases hmore : moreBody.getD false with
            | true =>
                rw [if_pos rfl, if_pos rfl, ih]
                constructor
                · rintro ⟨more, hrest, rfl, rfl, hle⟩
                  refine ⟨body.getD [] :: more, by rw [hrest]; rfl, by simp, rfl, ?_⟩
                  rw [List.flatten_cons, List.length_append]
                  omega
                · rintro ⟨whole, hwhole, rfl, rfl, hle⟩
                  obtain ⟨rest, hrest, heq⟩ := Option.map_eq_some_iff.1 hwhole
                  obtain ⟨rfl, rfl⟩ := Prod.mk.inj heq
                  rw [List.flatten_cons, List.length_append] at hle
                  exact ⟨rest.1, hrest, by simp, rfl, by omega⟩
            | false =>
                rw [if_neg Bool.false_ne_true, if_neg Bool.false_ne_true, foldl_next_ended]
                simp only [List.nil_append, Intake.ended.injEq, Outcome.called.injEq,
                  Option.some.injEq, Prod.mk.injEq]
                constructor
                · rintro ⟨rfl, rfl, rfl⟩
                  exact ⟨[body.getD []], ⟨rfl, rfl⟩, rfl, rfl, by
                    rw [List.flatten_singleton]
                    omega⟩
                · rintro ⟨_, ⟨rfl, rfl⟩, rfl, rfl, -⟩
                  exact ⟨rfl, rfl, rfl⟩

/-- **When the application is called**: after the message that completes a body within the limit. -/
theorem intake_eq_called_iff {chunks : List (List UInt8)} {buffered : List UInt8}
    {later : List Message} :
    intake limit messages = .ended (.called buffered) chunks later ↔
      completeChunks messages = some (chunks, later) ∧ buffered = chunks.flatten ∧
        chunks.flatten.length ≤ limit := by
  rw [intake, foldl_next_eq_called_iff]
  simp

/-- The bytes of the body that are kept: the chunks, and while the application runs the body joined
from them as well.  One chunk alone is its own join. -/
def Intake.held : Intake → ℕ
  | receiving chunks _ => chunks.flatten.length
  | ended (.called buffered) chunks _ =>
      chunks.flatten.length + if chunks.length = 1 then 0 else buffered.length
  | ended _ chunks _ => chunks.flatten.length

/-- The bytes of the body that are there while a message is dealt with. -/
def Intake.holding : Intake → Message → ℕ
  | receiving chunks _, message => chunks.flatten.length + message.size
  | ended outcome chunks later, _ => (ended outcome chunks later).held

/-- What the chunks come to after some messages: to the count of the loop, which is within the
limit, or else to the limit and the largest chunk. -/
def Intake.Counted (limit : ℕ) (messages : List Message) : Intake → Prop
  | receiving chunks seen => chunks.flatten.length = seen ∧ seen ≤ limit
  | ended _ chunks _ => chunks.flatten.length ≤ limit + largest (messages.map Message.size)

theorem largest_concat (messages : List Message) (message : Message) :
    largest ((messages ++ [message]).map Message.size) =
      max (largest (messages.map Message.size)) message.size := by
  rw [List.map_append, largest_append]
  exact congrArg _ (Nat.max_zero _)

theorem Intake.Counted.next {state : Intake} (h : state.Counted limit messages)
    (message : Message) : (state.next limit message).Counted limit (messages ++ [message]) := by
  have hgrows := largest_concat messages message
  cases state with
  | ended outcome chunks later =>
      have hkept : chunks.flatten.length ≤ limit + largest (messages.map Message.size) := h
      exact hkept.trans (by omega)
  | receiving chunks seen =>
      cases message with
      | disconnect => exact Nat.zero_le _
      | request body moreBody =>
          obtain ⟨hseen, hwithin⟩ := h
          have hkept : (chunks ++ [body.getD []]).flatten.length =
              seen + (body.getD []).length := by
            simp [hseen]
          have hsize : (Message.request body moreBody).size = (body.getD []).length := rfl
          rw [Intake.next]
          split
          · exact hkept.le.trans (by omega)
          · rename_i hwithin
            split
            · exact ⟨hkept, by omega⟩
            · exact hkept.le.trans (by omega)

theorem counted_intake (limit : ℕ) (messages : List Message) :
    (intake limit messages).Counted limit messages := by
  induction messages using List.reverseRecOn with
  | nil => exact ⟨rfl, Nat.zero_le _⟩
  | append_singleton messages message ih =>
      rw [intake, List.foldl_append]
      exact ih.next message

end Loop

/-! ### The guard -/

/-- The declared length, where it can be used. -/
def Scope.usableLength (scope : Scope) : Option ℕ :=
  (scope.declared.filter isDigits).bind intOfDigits

/-- A declared length of digits can be read as a number. -/
def Scope.LengthReadable (scope : Scope) : Prop :=
  ∀ declared, scope.declared = some declared → isDigits declared = true →
    (intOfDigits declared).isSome = true

/-- A body that comes in several chunks leaves room for its copy: twice its length is within the
limit and a chunk.  A body that is refused needs none. -/
def RoomForCopy (maxBytes : ℤ) (scope : Scope) (messages : List Message) : Prop :=
  ∀ chunks later, completeChunks messages = some (chunks, later) →
    chunks.flatten.length ≤ limitOf maxBytes →
    (∀ n, scope.usableLength = some n → n ≤ limitOf maxBytes) → chunks.length ≠ 1 →
      2 * chunks.flatten.length ≤ limitOf maxBytes + largest (chunks.map List.length)

/-- What the middleware promises of a request, whose messages arrive one by one. -/
structure BodyGuarded (maxBytes : ℤ) (scope : Scope) (messages : List Message) : Prop where
  raises : ∀ chunks later, bodySizeLimit maxBytes scope messages ≠ .ended .raised chunks later
  calls : (∃ chunks buffered later,
      bodySizeLimit maxBytes scope messages = .ended (.called buffered) chunks later) ↔
    ∃ body later, completeBody messages = some (body, later) ∧ body.length ≤ limitOf maxBytes ∧
      ∀ n, scope.usableLength = some n → n ≤ limitOf maxBytes
  reads : ∀ chunks buffered later,
    bodySizeLimit maxBytes scope messages = .ended (.called buffered) chunks later →
      completeBody messages = some (buffered, later) ∧
        ∀ k, Replay.reads k { buffered, later } =
          (Message.request (some buffered) (some false) :: later).take k
  /-- The limit and one chunk of those received bound what is kept, and what is there while a
  message is dealt with. -/
  holds : ∀ received, received <+: messages →
    (bodySizeLimit maxBytes scope received).held ≤
        limitOf maxBytes + largest (received.map Message.size) ∧
      ∀ message, received ++ [message] <+: messages →
        (bodySizeLimit maxBytes scope received).holding message ≤
          limitOf maxBytes + largest ((received ++ [message]).map Message.size)

section Guard

variable {maxBytes : ℤ} {scope : Scope} {messages : List Message}

theorem bodySizeLimit_eq (hhttp : scope.type = "http") (hreadable : scope.LengthReadable)
    (messages : List Message) :
    (∃ text, bodySizeLimit maxBytes scope messages = .ended (.rejected text) [] messages ∧
      ∃ n, scope.usableLength = some n ∧ limitOf maxBytes < n) ∨
    (bodySizeLimit maxBytes scope messages = intake (limitOf maxBytes) messages ∧
      ∀ n, scope.usableLength = some n → n ≤ limitOf maxBytes) := by
  rw [bodySizeLimit, if_neg (not_not.2 hhttp), Scope.usableLength]
  cases hdeclared : scope.declared with
  | none => exact .inr ⟨rfl, by simp⟩
  | some declared =>
      by_cases hdigits : isDigits declared = true
      · obtain ⟨n, hn⟩ := Option.isSome_iff_exists.1 (hreadable declared hdeclared hdigits)
        simp only [hdigits, if_true, hn, Option.filter_some, Option.bind_some, Option.some.injEq]
        by_cases hlarge : limitOf maxBytes < n
        · rw [if_pos hlarge]
          exact .inl ⟨_, rfl, n, rfl, hlarge⟩
        · rw [if_neg hlarge]
          exact .inr ⟨rfl, fun _ heq => heq ▸ not_lt.1 hlarge⟩
      · exact .inr ⟨by simp [hdigits], by simp [Option.filter_some, hdigits]⟩

theorem bodySizeLimit_raises (hhttp : scope.type = "http") (hreadable : ¬ scope.LengthReadable)
    (messages : List Message) :
    bodySizeLimit maxBytes scope messages = .ended .raised [] messages := by
  unfold Scope.LengthReadable at hreadable
  push Not at hreadable
  obtain ⟨declared, hdeclared, hdigits, hnone⟩ := hreadable
  have hraises : intOfDigits declared = none := by simpa using hnone
  rw [bodySizeLimit, if_neg (not_not.2 hhttp), hdeclared]
  simp [hdigits, hraises]

theorem intake_ne_raised (limit : ℕ) (messages : List Message) (chunks : List (List UInt8))
    (later : List Message) : intake limit messages ≠ .ended .raised chunks later := by
  suffices hfold : ∀ (messages : List Message) (state : Intake),
      (∀ chunks later, state ≠ .ended .raised chunks later) →
        ∀ chunks later, messages.foldl (Intake.next limit) state ≠ .ended .raised chunks later from
    hfold messages _ (fun _ _ h => Intake.noConfusion h) chunks later
  intro messages
  induction messages with
  | nil => exact fun _ h => h
  | cons message messages ih =>
      intro state hstate
      refine ih _ fun chunks' later => ?_
      cases state with
      | receiving chunks seen =>
          cases message with
          | disconnect => nofun
          | request body moreBody =>
              rw [Intake.next]
              split
              · nofun
              · split <;> nofun
      | ended outcome kept before =>
          rintro hraised
          obtain ⟨rfl, -, -⟩ := Intake.ended.inj hraised
          exact hstate kept before rfl

theorem holds_of_room (hhttp : scope.type = "http") (hreadable : scope.LengthReadable)
    (hroom : RoomForCopy maxBytes scope messages) {received : List Message}
    (hreceived : received <+: messages) :
    (bodySizeLimit maxBytes scope received).held ≤
        limitOf maxBytes + largest (received.map Message.size) ∧
      ∀ message : Message, (bodySizeLimit maxBytes scope received).holding message ≤
        limitOf maxBytes + largest ((received ++ [message]).map Message.size) := by
  simp only [largest_concat]
  obtain ⟨text, hrejected, -⟩ | ⟨hintake, husable⟩ := bodySizeLimit_eq hhttp hreadable received
  · rw [hrejected]
    exact ⟨Nat.zero_le _, fun _ => Nat.zero_le _⟩
  · rw [hintake]
    have hcounted := counted_intake (limitOf maxBytes) received
    cases hstate : intake (limitOf maxBytes) received with
    | receiving chunks seen =>
        rw [hstate] at hcounted
        obtain ⟨hkept, hwithin⟩ := hcounted
        refine ⟨by simp only [Intake.held]; omega, fun message => ?_⟩
        simp only [Intake.holding]
        omega
    | ended outcome chunks later =>
        suffices hheld : (Intake.ended outcome chunks later).held ≤
            limitOf maxBytes + largest (received.map Message.size) from
          ⟨hheld, fun message => hheld.trans (by omega)⟩
        rw [hstate] at hcounted
        have hkept : chunks.flatten.length ≤
            limitOf maxBytes + largest (received.map Message.size) := hcounted
        cases outcome with
        | called buffered =>
            obtain ⟨hcomplete, rfl, hwithin⟩ := intake_eq_called_iff.1 hstate
            obtain ⟨rest, rfl⟩ := hreceived
            obtain ⟨body, rfl, -, hsizes⟩ := completeChunks_split hcomplete
            have hlargest : largest (chunks.map List.length) ≤
                largest ((body ++ later).map Message.size) := by
              rw [List.map_append, largest_append, hsizes]
              exact le_max_left _ _
            have htwice := hroom chunks (later ++ rest) (completeChunks_append hcomplete rest)
              hwithin husable
            simp only [Intake.held]
            split
            · omega
            · rename_i hseveral
              have htwice := htwice hseveral
              omega
        | _ => exact hkept

theorem room_of_holds (hhttp : scope.type = "http") (hreadable : scope.LengthReadable)
    (hguarded : BodyGuarded maxBytes scope messages) : RoomForCopy maxBytes scope messages := by
  intro chunks later hcomplete hwithin husable hseveral
  obtain ⟨received, rfl, hreceived, hsizes⟩ := completeChunks_split hcomplete
  have hheld := (hguarded.holds received (List.prefix_append _ _)).1
  obtain ⟨text, -, n, hn, hlarge⟩ | ⟨hintake, -⟩ := bodySizeLimit_eq hhttp hreadable received
  · exact absurd (husable n hn) (not_le.2 hlarge)
  · rw [hintake, intake_eq_called_iff.2 ⟨hreceived, rfl, hwithin⟩, hsizes] at hheld
    simp only [Intake.held, if_neg hseveral] at hheld
    omega

/-- **The limit of the body size holds** for a request exactly where its declared length, if it is
of digits, can be read as a number, and a body of several chunks leaves room for its copy. -/
theorem bodyGuarded_iff (maxBytes : ℤ) (scope : Scope) (messages : List Message) :
    (scope.type = "http" → BodyGuarded maxBytes scope messages) ↔
      (scope.type = "http" → scope.LengthReadable ∧ RoomForCopy maxBytes scope messages) := by
  refine forall_congr' fun hhttp => ⟨fun hguarded => ?_, fun ⟨hreadable, hroom⟩ => ?_⟩
  · have hreadable : scope.LengthReadable := by
      by_contra hunreadable
      exact hguarded.raises [] messages (bodySizeLimit_raises hhttp hunreadable messages)
    exact ⟨hreadable, room_of_holds hhttp hreadable hguarded⟩
  · have hcases := @bodySizeLimit_eq maxBytes scope hhttp hreadable
    refine ⟨fun chunks later hraised => ?_, ?_, fun chunks buffered later hcalled => ?_,
      fun received hreceived => ?_⟩
    · obtain ⟨text, hrejected, -⟩ | ⟨hintake, -⟩ := hcases messages
      · rw [hrejected] at hraised
        cases hraised
      · rw [hintake] at hraised
        exact intake_ne_raised _ _ _ _ hraised
    · obtain ⟨text, hrejected, n, hn, hlarge⟩ | ⟨hintake, husable⟩ := hcases messages
      · rw [hrejected]
        refine iff_of_false (by simp) ?_
        rintro ⟨body, later, -, -, hle⟩
        exact absurd (hle n hn) (not_le.2 hlarge)
      · simp only [hintake, intake_eq_called_iff, completeBody, Option.map_eq_some_iff]
        constructor
        · rintro ⟨chunks, _, later, hcomplete, rfl, hwithin⟩
          exact ⟨_, later, ⟨_, hcomplete, rfl⟩, hwithin, husable⟩
        · rintro ⟨_, later, ⟨⟨chunks, _⟩, hcomplete, heq⟩, hwithin, -⟩
          cases heq
          exact ⟨chunks, _, _, hcomplete, rfl, hwithin⟩
    · obtain ⟨text, hrejected, -⟩ | ⟨hintake, -⟩ := hcases messages
      · rw [hrejected] at hcalled
        cases hcalled
      · rw [hintake] at hcalled
        obtain ⟨hcomplete, rfl, -⟩ := intake_eq_called_iff.1 hcalled
        refine ⟨?_, reads_replay _ later⟩
        rw [completeBody, hcomplete]
        rfl
    · obtain ⟨hheld, hholding⟩ := holds_of_room hhttp hreadable hroom hreceived
      exact ⟨hheld, fun message _ => hholding message⟩

/-- A superscript is a digit and no number: a length of `²` raises.  And a body of the length of the
limit that comes in two halves is held twice while the application runs. -/
theorem superscript_not_guarded :
    ¬ BodyGuarded 16777216 { headers := [("content-length", "²")] }
        [.request (some [123, 125]) (some false)] ∧
      ¬ BodyGuarded 4 {}
        [.request (some [123, 34]) (some true), .request (some [34, 125]) (some false)] := by
  constructor
  · intro hguarded
    exact hguarded.raises [] [.request (some [123, 125]) (some false)] (by decide)
  · intro hguarded
    exact absurd (hguarded.holds _ List.prefix_rfl).1 (by decide)

end Guard

end LoadCoach.Web
