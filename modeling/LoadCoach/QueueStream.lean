import LoadCoach.Foundations.Transition
import LoadCoach.Values

/-! # The live queue page

`services/queue_stream.py`: a publisher that polls the queue's report and publishes it as a frame
whenever its fingerprint changes, and the replay a client asks for when it reconnects.  A frame
carries the whole report, so that one frame makes any client right again.

A client is modelled by the frame it holds, which may be any frame this process or an earlier one
published: what it names on a reconnect is the sequence of that frame.  A restart of the process
starts the sequence again (`Broadcast.after`).

The publisher stores the fingerprint and the next sequence before it renders.  A render that fails
therefore leaves a fingerprint no frame shows, and a client that comes back from an earlier
process may name a sequence the present one has not reached; `upToDate_iff_keepsUp` says that
nothing else makes a client drift. -/

namespace LoadCoach

open Foundations

/-! ### Fingerprints -/

/-- The rows of a list of dictionaries without some of their keys. -/
def withoutKeys (keys : List String) : List Json → Except Raised (List Json)
  | [] => .ok []
  | .obj row :: rows => do
      let rest ← withoutKeys keys rows
      return .obj (row.filter fun m => !keys.contains m.1) :: rest
  | _ :: _ => .error .unexpected

/-- A report without what changes on every poll without meaning anything. -/
def trimmed : Members → Except Raised Members
  | [] => .ok []
  | (key, value) :: report => do
      if ["checked_at"].contains key then trimmed report
      else
        let value ← match key == "residency", value with
          | true, .arr rows => (withoutKeys ["idle_seconds"] rows).map .arr
          | _, value => .ok value
        let rest ← trimmed report
        return (key, value) :: rest

section Publisher

variable (dumps : Members → String)

/-- `fingerprint`: the digest of what is left; `dumps` is `json.dumps` with sorted keys. -/
def fingerprint (report : Members) : Except Raised String := (trimmed report).map dumps

/-! ### The publisher -/

/-- A `queue.status` frame: the report and the fragment rendered from it. -/
structure StatusFrame where
  sequence : ℤ
  data : Members
  html : Option String

/-- `QueueStatusPublisher`. -/
structure Publisher where
  latest : Option StatusFrame := none
  lastFingerprint : Option String := none
  sequence : ℤ := 0

namespace Publisher

/-- The fragment of a report; without a renderer there is none. -/
def fragment (render : Option (Members → Except Raised String)) (report : Members) :
    Except Raised (Option String) :=
  match render with
  | none => .ok none
  | some render => (render report).map some

/-- `poll_once`: what it returns or raises, and the publisher it leaves. -/
def pollOnce (built : Except Raised Members) (render : Option (Members → Except Raised String))
    (p : Publisher) : Except Raised (Option StatusFrame) × Publisher :=
  match built with
  | .error e => (.error e, p)
  | .ok report =>
      match fingerprint dumps report with
      | .error e => (.error e, p)
      | .ok digest =>
          if p.lastFingerprint = some digest then (.ok none, p)
          else
            -- both are stored before the fragment is rendered
            let q : Publisher :=
              { p with sequence := p.sequence + 1, lastFingerprint := some digest }
            match fragment render report with
            | .error e => (.error e, q)
            | .ok html =>
                let frame : StatusFrame := ⟨q.sequence, report, html⟩
                (.ok (some frame), { q with latest := some frame })

/-- `replay`: the latest frame, unless the client has seen it. -/
def replay (afterSequence limit : ℤ) (p : Publisher) : List StatusFrame :=
  match p.latest with
  | none => []
  | some latest => if latest.sequence ≤ afterSequence ∨ limit ≤ 0 then [] else [latest]

/-- The frame a client holds after a reconnect; what it held stays when nothing is replayed. -/
def reconnect (limit : ℤ) (held : Option StatusFrame) (p : Publisher) : Option StatusFrame :=
  (p.replay ((held.map StatusFrame.sequence).getD 0) limit).getLast?.or held

end Publisher

/-! ### Polls and restarts -/

/-- The publisher of the running process, the frames it has published, newest first, and those
of the processes before it. -/
structure Broadcast where
  publisher : Publisher := {}
  current : List StatusFrame := []
  earlier : List StatusFrame := []

/-- What happens: a poll, whose report may fail to be built or to be rendered, or a restart. -/
inductive BroadcastAct where
  | poll (built : Except Raised Members) (render : Option (Members → Except Raised String))
  | restart

namespace Broadcast

/-- The frames a client may hold. -/
def frames (s : Broadcast) : List StatusFrame := s.current ++ s.earlier

/-- The frame a poll published, if any, joins the others. -/
def published (result : Except Raised (Option StatusFrame)) (frames : List StatusFrame) :
    List StatusFrame :=
  match result with
  | .ok (some frame) => frame :: frames
  | _ => frames

/-- One step. -/
def after (s : Broadcast) : BroadcastAct → Broadcast
  | .poll built render =>
      let (result, publisher) := s.publisher.pollOnce dumps built render
      { s with publisher, current := published result s.current }
  | .restart => { earlier := s.current ++ s.earlier }

/-- Any sequence of polls and restarts. -/
def system : System Broadcast BroadcastAct := .guarded (fun _ _ => True) (after dumps) {}

end Broadcast

/-! ### What a poll can do -/

/-- Whether a report has the fingerprint the publisher stores. -/
def Publisher.Unchanged (p : Publisher) (report : Members) : Prop :=
  ∃ digest, fingerprint dumps report = .ok digest ∧ p.lastFingerprint = some digest

instance (p : Publisher) (report : Members) : Decidable (p.Unchanged dumps report) :=
  match h : fingerprint dumps report with
  | .ok digest => decidable_of_iff (p.lastFingerprint = some digest) (by
      simp [Publisher.Unchanged, h])
  | .error _ => .isFalse (by simp [Publisher.Unchanged, h])

variable {dumps}

namespace Publisher

variable (dumps) in
/-- **One poll.**  It fails before anything is stored, or finds nothing new, or fails to render
after it stored the fingerprint and the sequence, or publishes a frame. -/
theorem pollOnce_cases (built : Except Raised Members)
    (render : Option (Members → Except Raised String)) (p : Publisher) :
    (∃ e, p.pollOnce dumps built render = (.error e, p)) ∨
      ∃ report, built = .ok report ∧
        (p.Unchanged dumps report ∧ p.pollOnce dumps built render = (.ok none, p) ∨
          ¬ p.Unchanged dumps report ∧ ∃ digest, fingerprint dumps report = .ok digest ∧
            ((∃ e, fragment render report = .error e ∧ p.pollOnce dumps built render =
                (.error e, ⟨p.latest, some digest, p.sequence + 1⟩)) ∨
              ∃ html, p.pollOnce dumps built render =
                (.ok (some ⟨p.sequence + 1, report, html⟩),
                  ⟨some ⟨p.sequence + 1, report, html⟩, some digest, p.sequence + 1⟩))) := by
  cases built with
  | error e => exact .inl ⟨e, rfl⟩
  | ok report =>
      cases hdigest : fingerprint dumps report with
      | error e => exact .inl ⟨e, by simp [pollOnce, hdigest]⟩
      | ok digest =>
          refine .inr ⟨report, rfl, ?_⟩
          by_cases hsame : p.lastFingerprint = some digest
          · exact .inl ⟨⟨digest, hdigest, hsame⟩, by simp [pollOnce, hdigest, hsame]⟩
          · refine .inr ⟨?_, digest, hdigest, ?_⟩
            · rintro ⟨digest', hdigest', hsame'⟩
              cases hdigest.symm.trans hdigest'
              exact hsame hsame'
            · cases hfragment : fragment render report with
              | error e => exact .inl ⟨e, rfl, by simp [pollOnce, hdigest, hsame, hfragment]⟩
              | ok html => exact .inr ⟨html, by simp [pollOnce, hdigest, hsame, hfragment]⟩

variable {p : Publisher} {latest : StatusFrame}

theorem reconnect_of_latest (h : p.latest = some latest) {limit : ℤ} (hlimit : 0 < limit)
    (held : Option StatusFrame) :
    p.reconnect limit held =
      if (held.map StatusFrame.sequence).getD 0 < latest.sequence then some latest else held := by
  by_cases hbehind : (held.map StatusFrame.sequence).getD 0 < latest.sequence
  · have hreplay : p.replay ((held.map StatusFrame.sequence).getD 0) limit = [latest] := by
      simp only [replay, h]
      rw [if_neg (by omega)]
    rw [reconnect, hreplay, if_pos hbehind]
    rfl
  · have hreplay : p.replay ((held.map StatusFrame.sequence).getD 0) limit = [] := by
      simp only [replay, h]
      rw [if_pos (.inl (by omega))]
    rw [reconnect, hreplay, if_neg hbehind]
    rfl

theorem reconnect_of_none (h : p.latest = none) (limit : ℤ) (held : Option StatusFrame) :
    p.reconnect limit held = held := by
  simp [reconnect, replay, h]

end Publisher

/-! ### The numbering of one process -/

namespace Broadcast

/-- The frames of the running process are numbered upwards from one, the latest being last. -/
structure WellNumbered (s : Broadcast) : Prop where
  latest : s.publisher.latest = s.current.head?
  counted : 0 ≤ s.publisher.sequence
  bounded : ∀ f ∈ s.current, 0 < f.sequence ∧ f.sequence ≤ s.publisher.sequence
  descending : s.current.Pairwise fun f g => g.sequence < f.sequence

theorem wellNumbered_start (earlier : List StatusFrame) : WellNumbered { earlier } where
  latest := rfl
  counted := le_rfl
  bounded := by simp
  descending := .nil

theorem WellNumbered.poll {s : Broadcast} (h : s.WellNumbered) (built : Except Raised Members)
    (render : Option (Members → Except Raised String)) :
    (s.after dumps (.poll built render)).WellNumbered := by
  rcases Publisher.pollOnce_cases dumps built render s.publisher with
    ⟨e, hpoll⟩ | ⟨report, -, ⟨-, hpoll⟩ | ⟨-, digest, -, ⟨e, -, hpoll⟩ | ⟨html, hpoll⟩⟩⟩
  · simpa only [after, hpoll, published] using h
  · simpa only [after, hpoll, published] using h
  · simp only [after, hpoll, published]
    have hcounted := h.counted
    refine ⟨h.latest, ?_, fun f hf => ?_, h.descending⟩
    · show 0 ≤ s.publisher.sequence + 1
      omega
    · show 0 < f.sequence ∧ f.sequence ≤ s.publisher.sequence + 1
      have := h.bounded f hf
      omega
  · simp only [after, hpoll, published]
    have hcounted := h.counted
    refine ⟨rfl, ?_, fun f hf => ?_, List.pairwise_cons.2 ⟨fun f hf => ?_, h.descending⟩⟩
    · show 0 ≤ s.publisher.sequence + 1
      omega
    · show 0 < f.sequence ∧ f.sequence ≤ s.publisher.sequence + 1
      rcases List.mem_cons.1 hf with rfl | hf
      · show 0 < s.publisher.sequence + 1 ∧ s.publisher.sequence + 1 ≤ s.publisher.sequence + 1
        omega
      · have := h.bounded f hf
        omega
    · show f.sequence < s.publisher.sequence + 1
      have := (h.bounded f hf).2
      omega

/-- **Every state of every run is well numbered.** -/
theorem wellNumbered {h : List (Step Broadcast BroadcastAct)} {s : Broadcast}
    (hrun : Run (system dumps) h s) : s.WellNumbered := by
  refine hrun.invariant ?_ ?_
  · rintro s rfl
    exact wellNumbered_start []
  · rintro s a s' ⟨-, rfl⟩ hs
    cases a with
    | poll built render => exact hs.poll built render
    | restart => exact wellNumbered_start _

theorem WellNumbered.eq_latest {s : Broadcast} (h : s.WellNumbered) {f latest : StatusFrame}
    (hlatest : s.publisher.latest = some latest) (hf : f ∈ s.current)
    (hle : latest.sequence ≤ f.sequence) : f = latest := by
  have hhead := h.latest
  rw [hlatest] at hhead
  obtain ⟨rest, hcurrent⟩ := List.head?_eq_some_iff.1 hhead.symm
  rw [hcurrent] at hf
  rcases List.mem_cons.1 hf with hf | hf
  · exact hf
  · have hdescending := h.descending
    rw [hcurrent] at hdescending
    have := (List.pairwise_cons.1 hdescending).1 f hf
    omega

end Broadcast

/-! ### Clients that reconnect after a poll -/

variable (dumps)

/-- The poll of a report that returned normally. -/
def Returned (e : Step Broadcast BroadcastAct) (report : Members) : Prop :=
  ∃ render result, e.act = .poll (.ok report) render ∧
    (e.pre.publisher.pollOnce dumps (.ok report) render).1 = .ok result

/-- After a poll that returned normally, every client that reconnects holds a frame that shows
the report's fingerprint, whatever frame it held before. -/
def UpToDate (e : Step Broadcast BroadcastAct) : Prop :=
  ∀ report, Returned dumps e report → ∀ held : Option StatusFrame,
    (∀ f ∈ held, f ∈ e.post.frames) → ∀ limit, 0 < limit →
      ∃ f, e.post.publisher.reconnect limit held = some f ∧
        fingerprint dumps f.data = fingerprint dumps report

/-- The number of the latest frame once a poll of the report has returned. -/
def Publisher.reached (p : Publisher) (report : Members) : ℤ :=
  if p.Unchanged dumps report then (p.latest.map StatusFrame.sequence).getD 0 else p.sequence + 1

/-- What a poll needs of the state it finds: a stored fingerprint that a frame shows, and a
sequence beyond that of every other report an earlier process showed. -/
structure Broadcast.Ready (s : Broadcast) (report : Members) : Prop where
  shown : s.publisher.Unchanged dumps report →
    ∃ f, s.publisher.latest = some f ∧ fingerprint dumps f.data = fingerprint dumps report
  passed : ∀ f ∈ s.earlier, fingerprint dumps f.data ≠ fingerprint dumps report →
    f.sequence < s.publisher.reached dumps report

/-- A step that finds what it needs. -/
def KeepsUp (e : Step Broadcast BroadcastAct) : Prop :=
  ∀ report, Returned dumps e report → e.pre.Ready dumps report

variable {dumps}

/-- Every client ends with a report exactly when the latest frame shows it and is numbered beyond
the frames of earlier processes that show another. -/
theorem reconnects_iff {s : Broadcast} (hs : s.WellNumbered) (report : Members) :
    (∀ held : Option StatusFrame, (∀ f ∈ held, f ∈ s.frames) → ∀ limit, 0 < limit →
        ∃ f, s.publisher.reconnect limit held = some f ∧
          fingerprint dumps f.data = fingerprint dumps report) ↔
      ∃ latest, s.publisher.latest = some latest ∧
        fingerprint dumps latest.data = fingerprint dumps report ∧
        ∀ f ∈ s.earlier, fingerprint dumps f.data ≠ fingerprint dumps report →
          f.sequence < latest.sequence := by
  constructor
  · intro hall
    obtain ⟨f, hnew, hshows⟩ := hall none (by simp) 1 one_pos
    cases hlatest : s.publisher.latest with
    | none =>
        rw [Publisher.reconnect_of_none hlatest] at hnew
        cases hnew
    | some latest =>
        rw [Publisher.reconnect_of_latest hlatest one_pos] at hnew
        split at hnew
        · cases hnew
          refine ⟨f, rfl, hshows, fun g hg hother => ?_⟩
          by_contra hpassed
          have hheld : ∀ g' ∈ some g, g' ∈ s.frames := by
            rintro g' ⟨⟩
            exact List.mem_append_right _ hg
          obtain ⟨g', hold, hshows'⟩ := hall (some g) hheld 1 one_pos
          have hahead : ¬ ((some g).map StatusFrame.sequence).getD 0 < f.sequence := hpassed
          rw [Publisher.reconnect_of_latest hlatest one_pos, if_neg hahead] at hold
          cases hold
          exact hother hshows'
        · cases hnew
  · rintro ⟨latest, hlatest, hshows, hpassed⟩ held hheld limit hlimit
    rw [Publisher.reconnect_of_latest hlatest hlimit]
    split
    · exact ⟨latest, rfl, hshows⟩
    · rename_i hseen
      cases held with
      | none =>
          have hmem : latest ∈ s.current := List.mem_of_head? (hs.latest ▸ hlatest)
          exact absurd (hs.bounded latest hmem).1 hseen
      | some g =>
          refine ⟨g, rfl, ?_⟩
          have hle : latest.sequence ≤ g.sequence := not_lt.1 hseen
          rcases List.mem_append.1 (hheld g rfl) with hg | hg
          · rw [hs.eq_latest hlatest hg hle]
            exact hshows
          · by_contra hother
            exact absurd (hpassed g hg hother) hseen

/-- **A step keeps every client up to date** exactly when it finds what it needs. -/
theorem upToDate_iff {e : Step Broadcast BroadcastAct} (hpre : e.pre.WellNumbered)
    (hpost : e.post = e.pre.after dumps e.act) : UpToDate dumps e ↔ KeepsUp dumps e := by
  refine forall_congr' fun report => forall_congr' fun hreturned => ?_
  obtain ⟨render, result, hact, hresult⟩ := hreturned
  have hnumbered : e.post.WellNumbered := by
    rw [hpost, hact]
    exact hpre.poll (.ok report) render
  rw [reconnects_iff hnumbered report, hpost, hact]
  rcases Publisher.pollOnce_cases dumps (.ok report) render e.pre.publisher with
    ⟨_, hpoll⟩ | ⟨_, heq, ⟨hsame, hpoll⟩ | ⟨hnew, digest, hdigest, ⟨_, -, hpoll⟩ | ⟨html, hpoll⟩⟩⟩
  · rw [hpoll] at hresult
    cases hresult
  · -- nothing was published: the latest frame is the one that was there
    cases heq
    simp only [Broadcast.after, hpoll, Broadcast.published]
    constructor
    · rintro ⟨latest, hlatest, hshows, hpassed⟩
      refine ⟨fun _ => ⟨latest, hlatest, hshows⟩, fun f hf hother => ?_⟩
      rw [Publisher.reached, if_pos hsame, hlatest]
      exact hpassed f hf hother
    · rintro ⟨hshown, hpassed⟩
      obtain ⟨latest, hlatest, hshows⟩ := hshown hsame
      rw [Publisher.reached, if_pos hsame, hlatest] at hpassed
      exact ⟨latest, hlatest, hshows, hpassed⟩
  · rw [hpoll] at hresult
    cases hresult
  · -- the frame that was published is the latest one
    cases heq
    simp only [Broadcast.after, hpoll, Broadcast.published]
    constructor
    · rintro ⟨latest, hlatest, -, hpassed⟩
      cases hlatest
      refine ⟨fun hsame => absurd hsame hnew, fun f hf hother => ?_⟩
      rw [Publisher.reached, if_neg hnew]
      exact hpassed f hf hother
    · rintro ⟨-, hpassed⟩
      rw [Publisher.reached, if_neg hnew] at hpassed
      exact ⟨_, rfl, rfl, hpassed⟩

/-! ### All runs -/

/-- **The live queue page never drifts** in the runs whose polls find what they need, and in no
others. -/
theorem upToDate_iff_keepsUp {h : List (Step Broadcast BroadcastAct)} {s : Broadcast}
    (hrun : Run (Broadcast.system dumps) h s) :
    (∀ e ∈ h, UpToDate dumps e) ↔ ∀ e ∈ h, KeepsUp dumps e := by
  refine forall₂_congr fun e he => ?_
  obtain ⟨h₂, hpast, -, hpost⟩ := hrun.past_of_mem he
  exact upToDate_iff (Broadcast.wellNumbered hpast) hpost

end Publisher

section Histories

/-- A report of one member. -/
def providerReport (state : String) : Members := [("provider", .str state)]

/-- `json.dumps` of such a report. -/
def dumpsProvider : Members → String
  | [("provider", .str state)] => "\x7b\"provider\": \"" ++ state ++ "\"\x7d"
  | _ => ""

/-- A poll of such a report that renders, and one that does not. -/
def pollShown (state : String) : BroadcastAct :=
  .poll (.ok (providerReport state)) (some fun _ => .ok "<section></section>")

def pollBroken (state : String) : BroadcastAct :=
  .poll (.ok (providerReport state)) (some fun _ => .error .unexpected)

/-- The history of a list of polls and restarts. -/
def streamed (acts : List BroadcastAct) : List (Step Broadcast BroadcastAct) :=
  trace (Broadcast.after dumpsProvider) {} acts

theorem run_streamed (acts : List BroadcastAct) :
    Run (Broadcast.system dumpsProvider) (streamed acts)
      (acts.foldl (Broadcast.after dumpsProvider) {}) := by
  refine Run.replay ?_
  generalize ({} : Broadcast) = s
  induction acts generalizing s with
  | nil => trivial
  | cons a acts ih => exact ⟨trivial, ih _⟩

/-- Two changes and a restart, each of them polled twice. -/
theorem streamed_upToDate_iff :
    (∀ e ∈ streamed [pollShown "up", pollShown "up", pollShown "down", .restart,
        pollShown "down", pollShown "down"], UpToDate dumpsProvider e) ↔
      ∀ e ∈ streamed [pollShown "up", pollShown "up", pollShown "down", .restart,
        pollShown "down", pollShown "down"], KeepsUp dumpsProvider e :=
  upToDate_iff_keepsUp (run_streamed _)

theorem fingerprint_providerReport (state : String) :
    fingerprint dumpsProvider (providerReport state) =
      .ok ("\x7b\"provider\": \"" ++ state ++ "\"\x7d") := rfl

/-- A failed render, and a restart, each leave a client with a report that is no longer the
queue's: the fingerprint of the first was stored before it was rendered, and the frame of the
second has the number the client names. -/
theorem streamed_drifts :
    (¬ ∀ e ∈ streamed [pollShown "up", pollBroken "down", pollShown "down"],
        UpToDate dumpsProvider e) ∧
      ¬ ∀ e ∈ streamed [pollShown "up", .restart, pollShown "down"],
        UpToDate dumpsProvider e := by
  have hdiffer : fingerprint dumpsProvider (providerReport "up") ≠
      fingerprint dumpsProvider (providerReport "down") := by
    rw [fingerprint_providerReport, fingerprint_providerReport]
    intro h
    exact absurd (Except.ok.inj h) (by decide)
  constructor
  · intro h
    have hlast := h ⟨_, pollShown "down", _⟩ List.mem_cons_self (providerReport "down")
      ⟨_, none, rfl, rfl⟩
    obtain ⟨f, hf, hshows⟩ := hlast none (by simp) 1 one_pos
    cases hf
    exact hdiffer hshows
  · intro h
    have hlast := h ⟨_, pollShown "down", _⟩ List.mem_cons_self (providerReport "down")
      ⟨_, _, rfl, rfl⟩
    obtain ⟨f, hf, hshows⟩ := hlast
      (some ⟨1, providerReport "up", some "<section></section>"⟩) (by
        rintro f ⟨⟩
        exact List.mem_cons_of_mem _ List.mem_cons_self) 1 one_pos
    cases hf
    exact hdiffer hshows

end Histories

end LoadCoach
