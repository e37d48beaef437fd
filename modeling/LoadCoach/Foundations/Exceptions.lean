import Mathlib.Data.List.Forall2

/-! # Programs that may raise

A program that may raise is a function into `Except`.  These are the inversion rules a proof
needs to take one apart: what a successful sequence says about its parts, when a decoder inverts
an encoder on a list, and what a loop over distinct keys does to the part of the state under each
key when every round touches its own part alone (`foldlM_local`). -/

namespace Foundations

variable {ε α β γ : Type}

/-! ### Sequences -/

theorem bind_eq_ok {x : Except ε α} {f : α → Except ε β} {b : β} :
    (x >>= f) = .ok b ↔ ∃ a, x = .ok a ∧ f a = .ok b := by
  cases x with
  | error e => simp [bind, Except.bind]
  | ok a => simp [bind, Except.bind]

theorem bind_eq_error {x : Except ε α} {f : α → Except ε β} {e : ε} :
    (x >>= f) = .error e ↔ x = .error e ∨ ∃ a, x = .ok a ∧ f a = .error e := by
  cases x with
  | error e' => simp [bind, Except.bind]
  | ok a => simp [bind, Except.bind]

theorem map_eq_ok {x : Except ε α} {f : α → β} {b : β} :
    x.map f = .ok b ↔ ∃ a, x = .ok a ∧ f a = b := by
  cases x with
  | error e => simp [Except.map]
  | ok a => simp [Except.map]

theorem pure_eq_ok {a b : α} : (pure a : Except ε α) = .ok b ↔ a = b := by
  simp [pure, Except.pure]

@[simp] theorem ok_bind (a : α) (f : α → Except ε β) : ((.ok a : Except ε α) >>= f) = f a := rfl

theorem error_bind (e : ε) (f : α → Except ε β) : ((.error e : Except ε α) >>= f) = .error e := rfl

theorem toOption_eq_some {x : Except ε α} {a : α} : x.toOption = some a ↔ x = .ok a := by
  cases x <;> simp [Except.toOption]

/-! ### Lists -/

/-- **A decoder that inverts an encoder on each element, up to `g`, inverts it on the list.** -/
theorem mapM_map {encode : α → γ} {decode : γ → Except ε β} {g : α → β} {l : List α}
    (h : ∀ a ∈ l, decode (encode a) = .ok (g a)) :
    (l.map encode).mapM decode = .ok (l.map g) := by
  induction l with
  | nil => rfl
  | cons a l ih =>
      have ha := h a List.mem_cons_self
      have hl := ih fun b hb => h b (List.mem_cons_of_mem a hb)
      rw [List.map_cons, List.mapM_cons, ha, hl]
      rfl

theorem mapM_congr {f g : α → Except ε β} {l : List α} (h : ∀ a ∈ l, f a = g a) :
    l.mapM f = l.mapM g := by
  induction l with
  | nil => rfl
  | cons a l ih =>
      rw [List.mapM_cons, List.mapM_cons, h a List.mem_cons_self,
        ih fun b hb => h b (List.mem_cons_of_mem a hb)]

theorem mapM_eq_ok_map_iff {f : α → Except ε β} {g : α → β} {l : List α} :
    l.mapM f = .ok (l.map g) ↔ ∀ a ∈ l, f a = .ok (g a) := by
  induction l with
  | nil => simp [pure_eq_ok]
  | cons a l ih =>
      rw [List.mapM_cons, List.forall_mem_cons, ← ih, List.map_cons]
      cases f a with
      | error e => simp [bind, Except.bind]
      | ok b => cases l.mapM f <;> simp [bind, Except.bind, pure, Except.pure]

theorem mapM_eq_ok_map {f : α → Except ε β} {g : α → β} {l : List α}
    (h : ∀ a ∈ l, f a = .ok (g a)) : l.mapM f = .ok (l.map g) :=
  mapM_eq_ok_map_iff.2 h

theorem exists_mapM_ok_iff {f : α → Except ε β} {l : List α} :
    (∃ bs, l.mapM f = .ok bs) ↔ ∀ a ∈ l, ∃ b, f a = .ok b := by
  induction l with
  | nil => simp [pure_eq_ok]
  | cons a l ih =>
      rw [List.forall_mem_cons, ← ih]
      constructor
      · rintro ⟨bs, hbs⟩
        rw [List.mapM_cons, bind_eq_ok] at hbs
        obtain ⟨b, hb, hrest⟩ := hbs
        obtain ⟨bs', hbs', -⟩ := bind_eq_ok.1 hrest
        exact ⟨⟨b, hb⟩, bs', hbs'⟩
      · rintro ⟨⟨b, hb⟩, bs, hbs⟩
        exact ⟨b :: bs, by rw [List.mapM_cons, hb, hbs]; rfl⟩

/-- A list of programs succeeds with what each of them returns, in order. -/
theorem mapM_eq_ok_iff {f : α → Except ε β} {l : List α} {bs : List β} :
    l.mapM f = .ok bs ↔ List.Forall₂ (fun a b => f a = .ok b) l bs := by
  induction l generalizing bs with
  | nil =>
      rw [List.mapM_nil, pure_eq_ok, List.forall₂_nil_left_iff]
      exact eq_comm
  | cons a l ih =>
      rw [List.mapM_cons, bind_eq_ok, List.forall₂_cons_left_iff]
      refine exists_congr fun b => ?_
      constructor
      · rintro ⟨ha, hrest⟩
        obtain ⟨rest, hl, hpure⟩ := bind_eq_ok.1 hrest
        exact ⟨rest, ha, ih.1 hl, (pure_eq_ok.1 hpure).symm⟩
      · rintro ⟨rest, ha, hl, rfl⟩
        exact ⟨ha, bind_eq_ok.2 ⟨rest, ih.2 hl, rfl⟩⟩

/-- What a list of programs returns is what some of them does. -/
theorem mem_of_mapM_eq_ok {f : α → Except ε β} {l : List α} {bs : List β} {b : β}
    (h : l.mapM f = .ok bs) : b ∈ bs ↔ ∃ a ∈ l, f a = .ok b := by
  induction mapM_eq_ok_iff.1 h with
  | nil => simp
  | cons ha hl ih =>
      rw [List.mem_cons, ih (mapM_eq_ok_iff.2 hl), List.exists_mem_cons_iff, ha, Except.ok.injEq,
        eq_comm]

/-- A list of programs fails as the first of them that fails does. -/
theorem mapM_eq_error_iff {f : α → Except ε β} {l : List α} {e : ε} :
    l.mapM f = .error e ↔
      ∃ a, (l.find? fun a => !(f a).isOk) = some a ∧ f a = .error e := by
  induction l with
  | nil => simp [pure, Except.pure]
  | cons a l ih =>
      rw [List.mapM_cons]
      cases ha : f a with
      | error e' => simp [ha, Except.isOk, Except.toBool, bind, Except.bind]
      | ok b =>
          have hskip : ((a :: l).find? fun a => !(f a).isOk) = l.find? fun a => !(f a).isOk :=
            List.find?_cons_of_neg (by simp [ha, Except.isOk, Except.toBool])
          rw [hskip, ← ih, ok_bind]
          cases l.mapM f <;> simp [bind, Except.bind, pure, Except.pure]

theorem forM_eq_ok_iff {f : α → Except ε Unit} {l : List α} :
    forM l f = .ok () ↔ ∀ a ∈ l, f a = .ok () := by
  induction l with
  | nil => simp [pure, Except.pure]
  | cons a l ih =>
      rw [List.forM_cons, bind_eq_ok, List.forall_mem_cons, ← ih]
      exact ⟨fun ⟨_, ha, hl⟩ => ⟨ha, hl⟩, fun ⟨ha, hl⟩ => ⟨(), ha, hl⟩⟩

theorem exists_of_forM_eq_error {f : α → Except ε Unit} {l : List α} {e : ε}
    (h : forM l f = .error e) : ∃ a ∈ l, f a = .error e := by
  induction l with
  | nil => cases h
  | cons a l ih =>
      rw [List.forM_cons, bind_eq_error] at h
      obtain h | ⟨-, -, h⟩ := h
      · exact ⟨a, List.mem_cons_self, h⟩
      · obtain ⟨b, hb, herror⟩ := ih h
        exact ⟨b, List.mem_cons_of_mem a hb, herror⟩

/-- A list of optional results is a result when each of them is. -/
theorem mapM_eq_some {f : α → Option β} {l : List α} {bs : List β} :
    l.mapM f = some bs ↔ l.map f = bs.map some := by
  induction l generalizing bs with
  | nil => cases bs <;> simp
  | cons a l ih =>
      have hcons : (a :: l).mapM f = some bs ↔ ∃ b, f a = some b ∧ ∃ bs', l.mapM f = some bs' ∧
          b :: bs' = bs := by
        simp [List.mapM_cons, Option.bind_eq_some_iff]
      rw [hcons]
      cases bs with
      | nil => simp
      | cons b bs => simp [ih]

theorem mapM_isSome_iff {f : α → Option β} {l : List α} :
    (l.mapM f).isSome = true ↔ ∀ a ∈ l, (f a).isSome = true := by
  induction l with
  | nil => simp
  | cons a l ih =>
      rw [List.forall_mem_cons, ← ih, List.mapM_cons]
      cases f a with
      | none => simp
      | some b => cases l.mapM f <;> simp

/-! ### Loops -/

theorem foldlM_eq_self {σ : Type} {f : σ → α → Except ε σ} {l : List α} {s : σ}
    (h : ∀ a ∈ l, f s a = .ok s) : l.foldlM f s = .ok s := by
  induction l with
  | nil => rfl
  | cons a l ih =>
      rw [List.foldlM_cons, h a List.mem_cons_self]
      exact ih fun b hb => h b (List.mem_cons_of_mem a hb)

/-- **A loop over distinct keys whose rounds are local.**  When the round for a key succeeds on
every state whose part under that key meets `P`, relates the part before to the part after by `R`
and leaves every other part alone, the loop succeeds and does to each key's part what its round
does. -/
theorem foldlM_local {σ κ τ : Type} {f : σ → κ × α → Except ε σ} {v : σ → κ → τ}
    {P : κ × α → τ → Prop} {R : κ × α → τ → τ → Prop}
    (hlocal : ∀ s e, P e (v s e.1) → ∃ s', f s e = .ok s' ∧
      R e (v s e.1) (v s' e.1) ∧ ∀ k, k ≠ e.1 → v s' k = v s k)
    {rows : List (κ × α)} (hnodup : (rows.map Prod.fst).Nodup) {s : σ}
    (hP : ∀ e ∈ rows, P e (v s e.1)) :
    ∃ s', rows.foldlM f s = .ok s' ∧ (∀ e ∈ rows, R e (v s e.1) (v s' e.1)) ∧
      ∀ k, k ∉ rows.map Prod.fst → v s' k = v s k := by
  induction rows generalizing s with
  | nil => exact ⟨s, rfl, by simp, fun _ _ => rfl⟩
  | cons e rows ih =>
      obtain ⟨hfresh, hnodup⟩ := List.nodup_cons.1 hnodup
      obtain ⟨s₁, hround, hR, hframe⟩ := hlocal s e (hP e List.mem_cons_self)
      have hne : ∀ e' ∈ rows, e'.1 ≠ e.1 := fun e' he' heq =>
        hfresh (heq ▸ List.mem_map_of_mem he')
      have hP₁ : ∀ e' ∈ rows, P e' (v s₁ e'.1) := by
        intro e' he'
        rw [hframe e'.1 (hne e' he')]
        exact hP e' (List.mem_cons_of_mem e he')
      obtain ⟨s', hrest, hRs, hframes⟩ := ih hnodup hP₁
      refine ⟨s', ?_, ?_, ?_⟩
      · rw [List.foldlM_cons, hround]
        exact hrest
      · intro e' he'
        rcases List.mem_cons.1 he' with rfl | he'
        · rw [hframes e'.1 hfresh]
          exact hR
        · rw [← hframe e'.1 (hne e' he')]
          exact hRs e' he'
      · intro k hk
        rw [List.map_cons, List.mem_cons, not_or] at hk
        rw [hframes k hk.2, hframe k hk.1]

theorem lookup_mapM {κ : Type} [BEq κ] [LawfulBEq κ] {f : κ → Except ε β} {l : List κ}
    {table : List (κ × β)} (h : l.mapM (fun k => (f k).map fun b => (k, b)) = .ok table) (k : κ) :
    table.lookup k = if k ∈ l then (f k).toOption else none := by
  induction l generalizing table with
  | nil =>
      cases h
      rfl
  | cons k' l ih =>
      rw [List.mapM_cons] at h
      obtain ⟨entry, hentry, hrest⟩ := bind_eq_ok.1 h
      obtain ⟨rest, htable, hpure⟩ := bind_eq_ok.1 hrest
      obtain ⟨b, hb, rfl⟩ := map_eq_ok.1 hentry
      cases hpure
      rw [List.lookup_cons, ih htable]
      by_cases hk : k = k'
      · subst hk
        simp [hb, Except.toOption]
      · simp [hk, beq_false_of_ne hk]

end Foundations
