import Mathlib.Data.List.Basic
import Mathlib.Data.Option.Basic

/-! # Entries that the first claim takes over

A directory gives for each name the entry of every tag.  A tag without an entry of its own is
answered by the name's untagged entry (`answer`), and to claim a tag turns that entry into the
entry of the tag (`claim`): from then on it answers for this tag and no other.

After a list of claims a name's entries depend on its first claim alone (`claims_eq`), so that
`answer_claims_iff` says for which tags the answer is still what it was, and `answer_split_iff` for
which claims of a list the answer at their own turn is the one at the end. -/

namespace Foundations

/-- For each name, the entries of its tags and the untagged entry. -/
abbrev Directory (ν δ μ : Type*) := ν → Option δ → Option μ

namespace Directory

variable {ν δ μ : Type*} [DecidableEq ν] {dir dir' : Directory ν δ μ} {n : ν}
  {d : Option δ} {c : ν × Option δ} {l p s : List (ν × Option δ)}

/-- The entry that answers for a tag: its own, or else the untagged one. -/
def answer (dir : Directory ν δ μ) (n : ν) (d : Option δ) : Option μ :=
  (dir n d).or (dir n none)

/-- A claim that takes over the untagged entry of a name. -/
def Takes (dir : Directory ν δ μ) (n : ν) (c : ν × Option δ) : Prop :=
  c.1 = n ∧ c.2 ≠ none ∧ dir n c.2 = none

instance (dir : Directory ν δ μ) (n : ν) (c : ν × Option δ) : Decidable (dir.Takes n c) :=
  decidable_of_iff (c.1 = n ∧ c.2 ≠ none ∧ (dir n c.2).isNone)
    (by rw [Takes, Option.isNone_iff_eq_none])

/-- The first claim that takes over the untagged entry of a name. -/
def firstClaim (dir : Directory ν δ μ) (l : List (ν × Option δ)) (n : ν) : Option (ν × Option δ) :=
  l.find? fun c => decide (dir.Takes n c)

theorem takes_of_firstClaim (h : dir.firstClaim l n = some c) : c ∈ l ∧ dir.Takes n c :=
  ⟨List.mem_of_find?_eq_some h, by simpa using List.find?_some h⟩

theorem firstClaim_eq_none_iff : dir.firstClaim l n = none ↔ ∀ c ∈ l, ¬ dir.Takes n c := by
  simp [firstClaim, List.find?_eq_none]

theorem firstClaim_congr (h : dir' n = dir n) : dir'.firstClaim l n = dir.firstClaim l n := by
  have hsame : ∀ c, dir'.Takes n c ↔ dir.Takes n c := fun c => by rw [Takes, Takes, h]
  simp only [firstClaim, hsame]

variable [DecidableEq δ]

/-- The entries of a name whose untagged entry a tag took over. -/
def handed (entries : Option δ → Option μ) (t d : Option δ) : Option μ :=
  if d = t then entries none else if d = none then none else entries d

/-- The directory after a claim. -/
def claim (dir : Directory ν δ μ) (c : ν × Option δ) : Directory ν δ μ := fun n d =>
  if dir.Takes n c then handed (dir n) c.2 d else dir n d

/-- The directory after some claims. -/
def claims (dir : Directory ν δ μ) (l : List (ν × Option δ)) : Directory ν δ μ := l.foldl claim dir

/-! ### What the claims leave -/

theorem claim_of_takes (h : dir.Takes n c) : dir.claim c n = handed (dir n) c.2 := by
  funext d
  rw [claim, if_pos h]

theorem claim_of_not_takes (h : ¬ dir.Takes n c) : dir.claim c n = dir n := by
  funext d
  rw [claim, if_neg h]

theorem handed_none {entries : Option δ → Option μ} {t : Option δ} (h : t ≠ none) :
    handed entries t none = none := by
  rw [handed, if_neg h.symm, if_pos rfl]

theorem handed_of_none {entries : Option δ → Option μ} {t : Option δ} (ht : entries t = none)
    (h : entries none = none) : handed entries t = entries := by
  funext d
  rw [handed]
  split
  · rename_i hd
    rw [hd, ht, h]
  · split
    · rename_i hd
      rw [hd, h]
    · rfl

theorem claims_of_none (h : dir n none = none) : dir.claims l n = dir n := by
  induction l generalizing dir with
  | nil => rfl
  | cons c l ih =>
      have hkept : dir.claim c n = dir n := by
        by_cases htakes : dir.Takes n c
        · rw [claim_of_takes htakes, handed_of_none htakes.2.2 h]
        · exact claim_of_not_takes htakes
      rw [claims, List.foldl_cons, ← claims, ih (by rw [hkept, h]), hkept]

/-- **A name's entries after some claims** are settled by the first that takes its untagged entry
over. -/
theorem claims_eq (dir : Directory ν δ μ) (l : List (ν × Option δ)) (n : ν) :
    dir.claims l n = match dir.firstClaim l n with
      | none => dir n
      | some c => handed (dir n) c.2 := by
  induction l generalizing dir with
  | nil => rfl
  | cons c l ih =>
      rw [claims, List.foldl_cons, ← claims]
      by_cases htakes : dir.Takes n c
      · have hfirst : dir.firstClaim (c :: l) n = some c := by simp [firstClaim, htakes]
        have hgone : dir.claim c n none = none := by
          rw [claim_of_takes htakes, handed_none htakes.2.1]
        rw [claims_of_none hgone, claim_of_takes htakes, hfirst]
      · have hkept := claim_of_not_takes htakes
        have hfirst : dir.firstClaim (c :: l) n = dir.firstClaim l n := by
          simp [firstClaim, htakes]
        rw [ih, firstClaim_congr hkept, hkept, hfirst]

theorem exists_claims_iff : (∃ d, dir.claims l n d ≠ none) ↔ ∃ d, dir n d ≠ none := by
  rw [claims_eq]
  cases hfirst : dir.firstClaim l n with
  | none => rfl
  | some c =>
      obtain ⟨-, htakes⟩ := takes_of_firstClaim hfirst
      constructor
      · rintro ⟨d, hd⟩
        by_cases heq : d = c.2
        · exact ⟨none, by simpa [handed, heq] using hd⟩
        · by_cases hnone : d = none
          · simp [handed, hnone, htakes.2.1.symm] at hd
          · exact ⟨d, by simpa [handed, heq, hnone] using hd⟩
      · rintro ⟨d, hd⟩
        by_cases hnone : d = none
        · exact ⟨c.2, by simpa [handed, hnone] using hd⟩
        · refine ⟨d, ?_⟩
          have heq : d ≠ c.2 := by
            rintro rfl
            exact hd htakes.2.2
          simpa [handed, heq, hnone] using hd

/-- A tag that was claimed has an entry of its own, or there is no untagged one left. -/
theorem claims_settled (hc : c ∈ l) (htag : c.2 ≠ none) (h : dir.claims l c.1 c.2 = none) :
    dir.claims l c.1 none = none := by
  cases hfirst : dir.firstClaim l c.1 with
  | none =>
      have hentries : dir.claims l c.1 = dir c.1 := by rw [claims_eq, hfirst]
      rw [hentries] at h
      exact absurd ⟨rfl, htag, h⟩ (firstClaim_eq_none_iff.1 hfirst c hc)
  | some c' =>
      rw [claims_eq, hfirst]
      exact handed_none (takes_of_firstClaim hfirst).2.2.1

/-! ### What is answered -/

/-- A tag whose answer stays what it is when another tag takes the untagged entry over. -/
def Unmoved (entries : Option δ → Option μ) (t d : Option δ) : Prop :=
  d = t ∨ (d ≠ none ∧ entries d ≠ none)

theorem answer_claims_of_firstClaim (h : dir.firstClaim l n = some c) :
    (dir.claims l).answer n d = handed (dir n) c.2 d := by
  have hentries : dir.claims l n = handed (dir n) c.2 := by rw [claims_eq, h]
  rw [answer, hentries, handed_none (takes_of_firstClaim h).2.2.1]
  exact Option.or_none

/-- **What claims leave of an answer**: it is what it was exactly when there was no untagged entry,
or the first claim of the name does not move the tag. -/
theorem answer_claims_iff :
    (dir.claims l).answer n d = dir.answer n d ↔
      (dir n none ≠ none → ∀ c, dir.firstClaim l n = some c → Unmoved (dir n) c.2 d) := by
  cases hfirst : dir.firstClaim l n with
  | none =>
      have hentries : dir.claims l n = dir n := by rw [claims_eq, hfirst]
      simp [answer, hentries]
  | some c =>
      obtain ⟨-, -, htag, hentry⟩ := takes_of_firstClaim hfirst
      rw [answer_claims_of_firstClaim hfirst]
      simp only [Option.some.injEq, forall_eq', answer, handed, Unmoved]
      by_cases hd : d = c.2
      · simp [hd, hentry]
      · by_cases hnone : d = none
        · simp [hnone, htag.symm, eq_comm]
        · cases hown : dir n d with
          | some m => simp [hd, hnone]
          | none => simp [hd, hnone, eq_comm]

theorem claims_append : dir.claims (p ++ s) = (dir.claims p).claims s := List.foldl_append

/-- **A claim's answer at its own turn** is the one at the end, except where it asks for an untagged
entry that only a later claim takes over. -/
theorem answer_split_iff :
    (dir.claims (p ++ (n, d) :: s)).answer n d = (dir.claims p).answer n d ↔
      (d = none → dir n none ≠ none → dir.firstClaim p n = none → dir.firstClaim s n = none) := by
  have hself : ((dir.claims p).claim (n, d)).answer n d = (dir.claims p).answer n d := by
    refine answer_claims_iff (l := [(n, d)]).2 fun _ c hfirst => ?_
    have hmem := (takes_of_firstClaim hfirst).1
    rw [List.mem_singleton.1 hmem]
    exact .inl rfl
  rw [claims_append, claims, List.foldl_cons, ← claims, ← hself, answer_claims_iff]
  by_cases hd : d = none
  · -- an untagged query claims nothing
    have hkept : (dir.claims p).claim (n, d) n = dir.claims p n :=
      claim_of_not_takes fun htakes => htakes.2.1 hd
    rw [hkept, firstClaim_congr hkept]
    cases hfirst : dir.firstClaim p n with
    | some c =>
        have hgone : dir.claims p n none = none := by
          rw [claims_eq, hfirst]
          exact handed_none (takes_of_firstClaim hfirst).2.2.1
        simp [hgone]
    | none =>
        have hentries : dir.claims p n = dir n := by rw [claims_eq, hfirst]
        rw [hentries, firstClaim_congr hentries]
        constructor
        · intro hunmoved _ hentry _
          refine Option.eq_none_iff_forall_ne_some.2 fun c hc => ?_
          rcases hunmoved hentry c hc with htag | htag
          · exact (takes_of_firstClaim hc).2.2.1 (htag.symm.trans hd)
          · exact htag.1 hd
        · intro hnever hentry c hc
          rw [hnever hd hentry rfl] at hc
          cases hc
  · refine iff_of_true (fun hentry c _ => ?_) fun h => absurd h hd
    by_cases htakes : (dir.claims p).Takes n (n, d)
    · rw [claim_of_takes htakes, handed_none htakes.2.1] at hentry
      exact absurd rfl hentry
    · rw [claim_of_not_takes htakes]
      exact .inr ⟨hd, fun hown => htakes ⟨rfl, hd, hown⟩⟩

end Directory

end Foundations
