import LoadCoach.Content.ToolCalls
import LoadCoach.Execution

/-! # Streaming an answer

`_run_stream` and `_drain` of `services/execution.py`: a provider's stream is put together into the
answer, and every delta is handed on as a frame while it arrives.  The stream may fail with an event
of its own or by raising; what was produced until then stays.

`runStream_framed` says what the frames of one call are: the token deltas numbered from zero, the
thinking deltas that are not empty numbered on their own, and the fragments of the tool calls.  An
execution makes several calls, and each numbers its tokens anew.  A caller that starts over at every
token numbered zero ends up with the text of the result, unless the last call streamed no token at
all (`result_reassembled`). -/

namespace LoadCoach

open Foundations

/-! ### One call -/

/-- What a provider's stream yields; a failure may carry what was produced until then. -/
inductive StreamEvent where
  | tokenDelta (text : String)
  | thinkingDelta (text : String)
  | toolCallDelta (fragment : ToolCallFragment)
  | completed (result : ResultColumns)
  | failed (error : ProviderError) (partialText : Option String)

/-- A provider's stream: what it yields, and the error it ends with where it raises one. -/
structure ProviderStream where
  events : List StreamEvent
  raised : Option ProviderError := none

/-- A frame that is handed on. -/
inductive StreamChunk where
  | token (delta : String) (index : ℕ)
  | thinking (delta : String) (index : ℕ)
  | toolCall (fragment : ToolCallFragment)

/-- `_Collected` with the counters of `_drain`; `chunks` are the frames handed on. -/
structure Drained where
  text : String := ""
  thinking : String := ""
  toolCalls : List ToolCallFragment := []
  result : Option ResultColumns := none
  failure : Option ProviderError := none
  index : ℕ := 0
  thinkingIndex : ℕ := 0
  chunks : List StreamChunk := []

/-- One round of `_drain`. -/
def Drained.next (d : Drained) : StreamEvent → Drained
  | .tokenDelta text =>
      { d with
        text := d.text ++ text
        chunks := d.chunks ++ [.token text d.index]
        index := d.index + 1 }
  | .thinkingDelta text =>
      if text = "" then { d with thinking := d.thinking ++ text }
      else
        { d with
          thinking := d.thinking ++ text
          chunks := d.chunks ++ [.thinking text d.thinkingIndex]
          thinkingIndex := d.thinkingIndex + 1 }
  | .toolCallDelta fragment =>
      { d with
        toolCalls := d.toolCalls ++ [fragment]
        chunks := d.chunks ++ [.toolCall fragment] }
  | .completed result => { d with result := some result }
  | .failed error partialText =>
      { d with failure := some error, text := (present partialText).getD d.text }

/-- `_drain`. -/
def drain (events : List StreamEvent) : Drained := events.foldl Drained.next {}

/-- `_run_stream`: an error that is raised is a failure as well. -/
def runStream (stream : ProviderStream) : Drained :=
  { drain stream.events with failure := stream.raised <|> (drain stream.events).failure }

/-! ### The frames of a call -/

/-- The text of a token delta. -/
def StreamEvent.token? : StreamEvent → Option String
  | .tokenDelta text => some text
  | _ => none

/-- The text of a thinking delta that is handed on. -/
def StreamEvent.thought? : StreamEvent → Option String
  | .thinkingDelta text => if text = "" then none else some text
  | _ => none

/-- What a failure carries. -/
def StreamEvent.partial? : StreamEvent → Option String
  | .failed _ partialText => present partialText
  | _ => none

def StreamChunk.token? : StreamChunk → Option (String × ℕ)
  | .token delta index => some (delta, index)
  | _ => none

def StreamChunk.thinking? : StreamChunk → Option (String × ℕ)
  | .thinking delta index => some (delta, index)
  | _ => none

def StreamChunk.toolCall? : StreamChunk → Option ToolCallFragment
  | .toolCall fragment => some fragment
  | _ => none

/-- The token deltas of a stream, in order. -/
def tokensOf (events : List StreamEvent) : List String := events.filterMap StreamEvent.token?

/-- The thinking deltas of a stream that are not empty, in order. -/
def thoughtsOf (events : List StreamEvent) : List String := events.filterMap StreamEvent.thought?

/-- What the frames of a call say of what it collected. -/
structure Framed (events : List StreamEvent) (d : Drained) : Prop where
  tokens : d.chunks.filterMap StreamChunk.token? = (tokensOf events).zipIdx
  thoughts : d.chunks.filterMap StreamChunk.thinking? = (thoughtsOf events).zipIdx
  toolCalls : d.chunks.filterMap StreamChunk.toolCall? = d.toolCalls
  thinking : d.thinking = String.join (thoughtsOf events)
  /-- Nothing was carried by a failure: the text is what was handed on. -/
  whole : (∀ event ∈ events, event.partial? = none) → d.text = String.join (tokensOf events)
  /-- What the last such failure carried replaces what came before it. -/
  replaced : ∀ before event text after, events = before ++ event :: after →
    event.partial? = some text → (∀ event ∈ after, event.partial? = none) →
      d.text = text ++ String.join (tokensOf after)

section Next

variable (d : Drained) (event : StreamEvent)

theorem tokens_next : (d.next event).chunks.filterMap StreamChunk.token? =
    d.chunks.filterMap StreamChunk.token? ++ event.token?.toList.zipIdx d.index := by
  cases event with
  | thinkingDelta text =>
      by_cases htext : text = "" <;>
        simp [Drained.next, htext, StreamEvent.token?, StreamChunk.token?]
  | _ => simp [Drained.next, StreamEvent.token?, StreamChunk.token?]

theorem index_next : (d.next event).index = d.index + event.token?.toList.length := by
  cases event with
  | thinkingDelta text =>
      by_cases htext : text = "" <;> simp [Drained.next, htext, StreamEvent.token?]
  | _ => rfl

theorem thoughts_next : (d.next event).chunks.filterMap StreamChunk.thinking? =
    d.chunks.filterMap StreamChunk.thinking? ++ event.thought?.toList.zipIdx d.thinkingIndex := by
  cases event with
  | thinkingDelta text =>
      by_cases htext : text = "" <;>
        simp [Drained.next, htext, StreamEvent.thought?, StreamChunk.thinking?]
  | _ => simp [Drained.next, StreamEvent.thought?, StreamChunk.thinking?]

theorem thinkingIndex_next :
    (d.next event).thinkingIndex = d.thinkingIndex + event.thought?.toList.length := by
  cases event with
  | thinkingDelta text =>
      by_cases htext : text = "" <;> simp [Drained.next, htext, StreamEvent.thought?]
  | _ => rfl

theorem thinking_next :
    (d.next event).thinking = d.thinking ++ String.join event.thought?.toList := by
  cases event with
  | thinkingDelta text =>
      by_cases htext : text = "" <;> simp [Drained.next, htext, StreamEvent.thought?]
  | _ => simp [Drained.next, StreamEvent.thought?]

theorem toolCalls_next (h : d.chunks.filterMap StreamChunk.toolCall? = d.toolCalls) :
    (d.next event).chunks.filterMap StreamChunk.toolCall? = (d.next event).toolCalls := by
  cases event with
  | thinkingDelta text =>
      by_cases htext : text = "" <;> simp [Drained.next, htext, StreamChunk.toolCall?, h]
  | _ => simp [Drained.next, StreamChunk.toolCall?, h]

theorem text_next :
    (d.next event).text = event.partial?.getD (d.text ++ event.token?.getD "") := by
  cases event with
  | thinkingDelta text =>
      by_cases htext : text = "" <;>
        simp [Drained.next, htext, StreamEvent.partial?, StreamEvent.token?]
  | _ => simp [Drained.next, StreamEvent.partial?, StreamEvent.token?]

end Next

section Drain

variable {events : List StreamEvent} {d : Drained}

theorem tokensOf_concat (events : List StreamEvent) (event : StreamEvent) :
    tokensOf (events ++ [event]) = tokensOf events ++ event.token?.toList := by
  rw [tokensOf, List.filterMap_append, ← tokensOf]
  cases event <;> rfl

theorem thoughtsOf_concat (events : List StreamEvent) (event : StreamEvent) :
    thoughtsOf (events ++ [event]) = thoughtsOf events ++ event.thought?.toList := by
  rw [thoughtsOf, List.filterMap_append, ← thoughtsOf]
  cases h : event.thought? <;> simp [h]

theorem drain_concat (events : List StreamEvent) (event : StreamEvent) :
    drain (events ++ [event]) = (drain events).next event := List.foldl_concat ..

theorem counted_drain (events : List StreamEvent) :
    (drain events).index = (tokensOf events).length ∧
      (drain events).thinkingIndex = (thoughtsOf events).length := by
  induction events using List.reverseRecOn with
  | nil => exact ⟨rfl, rfl⟩
  | append_singleton events event ih =>
      rw [drain_concat, index_next, thinkingIndex_next, ih.1, ih.2, tokensOf_concat,
        thoughtsOf_concat, List.length_append, List.length_append]
      exact ⟨rfl, rfl⟩

theorem text_foldl {events : List StreamEvent} (h : ∀ event ∈ events, event.partial? = none)
    (d : Drained) : (events.foldl Drained.next d).text = d.text ++ String.join (tokensOf events) := by
  induction events generalizing d with
  | nil => exact (String.append_empty).symm
  | cons event events ih =>
      obtain ⟨hevent, hevents⟩ := List.forall_mem_cons.1 h
      have htokens : tokensOf (event :: events) = event.token?.toList ++ tokensOf events := by
        rw [tokensOf, List.filterMap_cons, ← tokensOf]
        cases event.token? <;> rfl
      rw [List.foldl_cons, ih hevents, text_next, hevent, htokens, String.join_append,
        Option.getD_none, ← String.append_assoc]
      cases event.token? <;> simp

theorem frames_drain (events : List StreamEvent) :
    (drain events).chunks.filterMap StreamChunk.token? = (tokensOf events).zipIdx ∧
      (drain events).chunks.filterMap StreamChunk.thinking? = (thoughtsOf events).zipIdx ∧
      (drain events).chunks.filterMap StreamChunk.toolCall? = (drain events).toolCalls ∧
      (drain events).thinking = String.join (thoughtsOf events) := by
  induction events using List.reverseRecOn with
  | nil => exact ⟨rfl, rfl, rfl, rfl⟩
  | append_singleton events event ih =>
      obtain ⟨htokens, hthoughts, hcalls, hthinking⟩ := ih
      obtain ⟨hindex, hthinkingIndex⟩ := counted_drain events
      rw [drain_concat, tokensOf_concat, thoughtsOf_concat]
      refine ⟨?_, ?_, toolCalls_next _ _ hcalls, ?_⟩
      · rw [tokens_next, htokens, hindex, List.zipIdx_append, Nat.zero_add]
      · rw [thoughts_next, hthoughts, hthinkingIndex, List.zipIdx_append, Nat.zero_add]
      · rw [thinking_next, hthinking, String.join_append]

/-- **The frames of a call**, however its stream goes on and ends. -/
theorem runStream_framed (stream : ProviderStream) : Framed stream.events (runStream stream) := by
  obtain ⟨htokens, hthoughts, hcalls, hthinking⟩ := frames_drain stream.events
  refine ⟨htokens, hthoughts, hcalls, hthinking, ?_, ?_⟩
  · intro hnone
    exact (text_foldl hnone {}).trans String.empty_append
  · intro before event text after hevents htext hnone
    have hdrained : (drain stream.events).text = text ++ String.join (tokensOf after) := by
      rw [hevents, drain, List.foldl_append, List.foldl_cons, text_foldl hnone, text_next, htext,
        Option.getD_some]
    exact hdrained

theorem partial?_of_unfailed {stream : ProviderStream} (h : (runStream stream).failure = none) :
    ∀ event ∈ stream.events, event.partial? = none := by
  have hdrained : (drain stream.events).failure = none := by
    rw [runStream] at h
    cases hraised : stream.raised with
    | some error =>
        rw [hraised] at h
        cases h
    | none =>
        rw [hraised] at h
        exact h
  clear h
  revert hdrained
  induction stream.events using List.reverseRecOn with
  | nil => simp
  | append_singleton events event ih =>
      intro hdrained
      rw [drain_concat] at hdrained
      have hbefore : (drain events).failure = none ∧ event.partial? = none := by
        cases event with
        | thinkingDelta text =>
            by_cases htext : text = "" <;>
              simp_all [Drained.next, StreamEvent.partial?]
        | failed error partialText => cases hdrained
        | _ => exact ⟨hdrained, rfl⟩
      intro e he
      rcases List.mem_append.1 he with he | he
      · exact ih hbefore.1 e he
      · rw [List.mem_singleton.1 he]
        exact hbefore.2

end Drain

/-! ### A whole execution -/

/-- What a provider streams for an attempt, how long it took, and what validation says of a text. -/
structure Streaming (P : Type) where
  stream : P → RankedCandidate → ℕ → ProviderStream
  clock : P → RankedCandidate → ℕ → Instant × Instant × ℤ
  validate : String → Option Bool

section Execution

variable {P : Type} (s : Streaming P)

/-- The stream of a call. -/
def Streaming.of (call : Call P) : ProviderStream :=
  s.stream call.provider call.candidate call.attemptNumber

/-- What a call produced, validated. -/
def Streaming.collected (provider : P) (candidate : RankedCandidate) (attemptNumber : ℕ) :
    Collected :=
  let drained := runStream (s.stream provider candidate attemptNumber)
  let (startedAt, completedAt, providerMs) := s.clock provider candidate attemptNumber
  { failure := drained.failure
    validation := s.validate drained.text
    text := drained.text
    startedAt
    completedAt
    providerMs
    result := drained.result }

/-- The surroundings of an execution whose providers stream. -/
def Surroundings.streaming (env : Surroundings P) : Surroundings P :=
  { env with answer := s.collected }

/-- The frames that calls hand on, in order. -/
def Streaming.chunks (calls : List (Call P)) : List StreamChunk :=
  calls.flatMap fun call => (runStream (s.of call)).chunks

/-- What a caller has after the frames that starts over at every token numbered zero. -/
def readAnswer (chunks : List StreamChunk) : String :=
  (chunks.filterMap StreamChunk.token?).foldl
    (fun text frame => if frame.2 = 0 then frame.1 else text ++ frame.1) ""

variable {s}

theorem foldl_numbered (tokens : List String) (n : ℕ) (text : String) :
    (tokens.zipIdx (n + 1)).foldl
        (fun text frame => if frame.2 = 0 then frame.1 else text ++ frame.1) text =
      text ++ String.join tokens := by
  induction tokens generalizing n text with
  | nil => exact String.append_empty.symm
  | cons token tokens ih =>
      rw [List.zipIdx_cons, List.foldl_cons, if_neg (Nat.succ_ne_zero n), ih, String.join_cons,
        String.append_assoc]

theorem readAnswer_concat (calls : List (Call P)) (call : Call P)
    (htokens : tokensOf (s.of call).events ≠ []) :
    readAnswer (s.chunks (calls ++ [call])) = String.join (tokensOf (s.of call).events) := by
  rw [readAnswer, Streaming.chunks, List.flatMap_append, List.filterMap_append, List.foldl_append,
    List.flatMap_singleton, (runStream_framed (s.of call)).tokens]
  cases hcall : tokensOf (s.of call).events with
  | nil => exact absurd hcall htokens
  | cons token tokens =>
      rw [List.zipIdx_cons, List.foldl_cons, if_pos rfl, foldl_numbered, String.join_cons]

/-! ### The last call -/

section LastCall

variable {provider : P} {env : Surroundings P} {maxAttempts limit : ℕ} {candidate : RankedCandidate}
  {holdsProbe : Bool}

/-- What an execution ends with is what its last call produced. -/
def LastCall (env : Surroundings P) (executed : Executed P) : Prop :=
  ∀ outcome ∈ executed.collected, ∃ calls call, executed.calls = calls ++ [call] ∧
    outcome = runAttempt call.attemptNumber call.candidate
      (env.answer call.provider call.candidate call.attemptNumber)

theorem lastCall_judge {st : Execution P} {outcome : AttemptOutcome} {executed : Executed P}
    (h : judge env limit candidate holdsProbe st outcome = .stop executed) :
    ∀ collected ∈ executed.collected, collected = outcome := by
  intro collected hcollected
  unfold judge at h
  split at h
  · split at h
    · cases h
      cases hcollected
    · split_ifs at h <;>
      · cases h
        cases hcollected
        rfl
  · split_ifs at h
    · cases h
      cases hcollected
      rfl
    · split at h
      · cases h
        cases hcollected
      · cases h

theorem lastCall_attemptCandidate (remaining : ℕ) {st : Execution P} {executed : Executed P}
    (h : attemptCandidate provider env limit candidate holdsProbe remaining st = .inr executed) :
    LastCall env executed := by
  induction remaining generalizing st with
  | zero => cases h
  | succ remaining ih =>
      rw [attemptCandidate] at h
      dsimp only at h
      split at h
      · cases h
        intro outcome houtcome
        cases houtcome
      · split at h
        · rename_i hstop
          cases h
          intro collected hcollected
          rw [lastCall_judge hstop collected hcollected, judge_stop hstop]
          exact ⟨_, _, rfl, rfl⟩
        · cases h
        · exact ih h

theorem lastCall_tryCandidates (rest : List (Option RankedCandidate)) (st : Execution P) :
    LastCall env (tryCandidates provider env maxAttempts limit rest st) := by
  induction rest generalizing st with
  | nil =>
      intro outcome houtcome
      cases houtcome
  | cons c rest ih =>
      cases c with
      | none => exact ih st
      | some candidate =>
          rw [tryCandidates]
          dsimp only
          split_ifs
          · exact ih st
          · split
            · exact ih _
            · rename_i executed hexecuted
              exact lastCall_attemptCandidate maxAttempts hexecuted

end LastCall

theorem runAttempt_answered {attemptNumber : ℕ} {candidate : RankedCandidate} {collected : Collected}
    {result : ResultColumns}
    (h : (runAttempt attemptNumber candidate collected).result = some result) :
    collected.failure = none ∧
      (runAttempt attemptNumber candidate collected).text = collected.text := by
  unfold runAttempt at h ⊢
  cases hfailure : collected.failure with
  | some failure =>
      rw [hfailure] at h
      cases h
  | none => exact ⟨rfl, rfl⟩

theorem collected_of_result {executed : Executed P} {totalMs : ℤ} {supportsStreaming : Bool}
    {result : ResultColumns} {selected : Selection}
    (h : executed.outcome totalMs supportsStreaming = .result result selected) :
    ∃ collected columns, executed.collected = some collected ∧ collected.result = some columns ∧
      result.responseText = some collected.text := by
  rw [Executed.outcome] at h
  cases hrefusal : executed.refusal with
  | some refusal =>
      rw [hrefusal] at h
      cases h
  | none =>
      cases hselected : executed.selected with
      | none =>
          simp only [hrefusal, hselected] at h
          cases h
      | some candidate =>
          cases hcollected : executed.collected with
          | none =>
              simp only [hrefusal, hselected, hcollected] at h
              cases h
          | some collected =>
              simp only [hrefusal, hselected, hcollected] at h
              cases hresult : collected.result with
              | none =>
                  rw [hresult] at h
                  cases h
              | some columns =>
                  rw [hresult] at h
                  cases h
                  exact ⟨collected, columns, rfl, hresult, rfl⟩

/-- **A caller that puts the tokens together has the answer.** -/
theorem result_reassembled {provider : P} {env : Surroundings P} {policy : ExecutionPolicy}
    {ranking : Ranking} {totalMs : ℤ} {supportsStreaming : Bool} {result : ResultColumns}
    {selected : Selection}
    (h : (executeAttempts provider (env.streaming s) policy ranking).outcome totalMs
      supportsStreaming = .result result selected) :
    ∃ calls call,
      (executeAttempts provider (env.streaming s) policy ranking).calls = calls ++ [call] ∧
      result.responseText = some (String.join (tokensOf (s.of call).events)) ∧
      (tokensOf (s.of call).events ≠ [] → result.responseText =
        some (readAnswer
          (s.chunks (executeAttempts provider (env.streaming s) policy ranking).calls))) := by
  obtain ⟨collected, columns, hcollected, hcolumns, htext⟩ := collected_of_result h
  obtain ⟨calls, call, hcalls, rfl⟩ := lastCall_tryCandidates _ _ collected hcollected
  obtain ⟨hstream, hsame⟩ := runAttempt_answered hcolumns
  have hwhole := (runStream_framed (s.of call)).whole (partial?_of_unfailed hstream)
  have htext : result.responseText = some (String.join (tokensOf (s.of call).events)) := by
    rw [htext, hsame, ← hwhole]
    rfl
  refine ⟨calls, call, hcalls, htext, fun htokens => ?_⟩
  have hread := readAnswer_concat calls call htokens
  rw [htext, ← hread, ← hcalls]
  rfl

/-- The first candidate fails in the middle of its answer; the second one answers. -/
def failsOnce : Streaming ℕ where
  stream _ candidate _ :=
    if candidate.rank = 2 then
      ⟨[.thinkingDelta "hm", .tokenDelta "Local ", .tokenDelta "answer", .completed {}], none⟩
    else ⟨[.tokenDelta "Lo"], some ⟨.providerTimeout, "PROVIDER_TIMEOUT", "timed out"⟩⟩
  clock _ _ _ := (0, 0, 0)
  validate _ := none

theorem result_reassembled_failsOnce :
    ∃ calls call,
      (executeAttempts 0 (timeouts.streaming failsOnce) {} remoteFallback).calls =
        calls ++ [call] ∧
      some "Local answer" = some (String.join (tokensOf (failsOnce.of call).events)) ∧
      (tokensOf (failsOnce.of call).events ≠ [] → some "Local answer" =
        some (readAnswer (failsOnce.chunks
          (executeAttempts 0 (timeouts.streaming failsOnce) {} remoteFallback).calls))) :=
  @result_reassembled ℕ failsOnce 0 timeouts {} remoteFallback 0 true _ _ rfl

end Execution

end LoadCoach
