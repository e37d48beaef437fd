import LoadCoach.Residency.Episodes

/-! # Registrations and their episodes

Every registration has a residency service of its own, and all of them read one table without a
condition on the registration.  So a service may meet the episodes of another: `sync` closes those
its provider does not report, `evict_idle` and the eviction loop of `ensure_loaded` send their
models to its provider to be unloaded.

`Scoped` says when a call does not reach an episode of another registration as it reads the table.
In every run in which no reading does, no service closes an episode of another registration or
sends its provider a model the provider does not serve (`services_isolated`). -/

namespace LoadCoach.Residency

open Foundations

variable {setup : Setup} {service : String} {t t' : Table} {answer : Answer} {c : Call}
  {o : Outcome}

/-! ### Rows and the entries read from them -/

namespace Table

/-- A key tells the model, and every key is below the next one. -/
structure Keyed (t : Table) : Prop where
  fresh : ∀ row ∈ t.rows, row.id < t.nextId
  model : ∀ row ∈ t.rows, ∀ other ∈ t.rows, row.id = other.id → row.modelId = other.modelId

/-- An entry was read from the table: its key tells its model. -/
def Knows (t : Table) (entry : Episode) : Prop :=
  entry.id < t.nextId ∧ ∀ row ∈ t.rows, row.id = entry.id → row.modelId = entry.modelId

theorem Keyed.knows (ht : t.Keyed) {entry : Episode} (hentry : entry ∈ t.resident) :
    t.Knows entry := by
  have hrow := (mem_resident.1 hentry).1
  exact ⟨ht.fresh entry hrow, fun row hmem hid => ht.model row hmem entry hrow hid⟩

/-- Every row comes from one with its key and model, or is a new one. -/
def Extends (t t' : Table) : Prop :=
  t.nextId ≤ t'.nextId ∧ ∀ row' ∈ t'.rows,
    (∃ row ∈ t.rows, row.id = row'.id ∧ row.modelId = row'.modelId) ∨ row'.id = t.nextId

theorem Knows.extends {entry : Episode} (h : t.Knows entry) (ht : t.Extends t') :
    t'.Knows entry := by
  refine ⟨h.1.trans_le ht.1, ?_⟩
  intro row' hrow' hid
  rcases ht.2 row' hrow' with ⟨row, hrow, hsame, hmodel⟩ | hnew
  · rw [← hmodel]
    exact h.2 row hrow (hsame.trans hid)
  · have hlt := h.1
    omega

theorem Keyed.map {f : Episode → Episode} (ht : t.Keyed) (hid : ∀ row, (f row).id = row.id)
    (hmodel : ∀ row, (f row).modelId = row.modelId) :
    ({ t with rows := t.rows.map f } : Table).Keyed ∧
      t.Extends { t with rows := t.rows.map f } := by
  refine ⟨⟨?_, ?_⟩, le_rfl, ?_⟩
  · intro row' hrow'
    obtain ⟨row, hrow, rfl⟩ := List.mem_map.1 hrow'
    rw [hid]
    exact ht.fresh row hrow
  · intro row' hrow' other' hother' hsame
    obtain ⟨row, hrow, rfl⟩ := List.mem_map.1 hrow'
    obtain ⟨other, hother, rfl⟩ := List.mem_map.1 hother'
    rw [hmodel, hmodel]
    exact ht.model row hrow other hother (by rwa [hid, hid] at hsame)
  · intro row' hrow'
    obtain ⟨row, hrow, rfl⟩ := List.mem_map.1 hrow'
    exact .inl ⟨row, hrow, (hid row).symm, (hmodel row).symm⟩

theorem Keyed.close (ht : t.Keyed) (id : ℕ) (now : Instant) (reason : String) :
    (t.close id now reason).Keyed ∧ t.Extends (t.close id now reason) :=
  ht.map (fun row => by split <;> rfl) fun row => by split <;> rfl

theorem Keyed.recordUse (ht : t.Keyed) {m : String} {g : ℕ} {now : Instant}
    {adapterId : Option String} {adapterKey : String}
    (h : t.recordUse m g now adapterId adapterKey = .ok t') : t'.Keyed ∧ t.Extends t' := by
  unfold Table.recordUse at h
  split at h
  · cases h
    exact ⟨ht, le_rfl, fun row hrow => .inl ⟨row, hrow, rfl, rfl⟩⟩
  · split at h <;> cases h
    exact ht.map (fun row => by split <;> rfl) fun row => by split <;> rfl
  · cases h

theorem Keyed.insert (ht : t.Keyed) {row : Episode} (h : t.insert row = .ok t') :
    t'.Keyed ∧ t.Extends t' := by
  have hfresh := fresh_insert ht.fresh h
  unfold Table.insert at h
  split at h <;> cases h
  refine ⟨⟨hfresh, ?_⟩, Nat.le_succ _, ?_⟩
  · intro one hone other hother hsame
    rcases List.mem_append.1 hone with hone | hone <;>
      rcases List.mem_append.1 hother with hother | hother
    · exact ht.model one hone other hother hsame
    · rw [List.mem_singleton.1 hother] at hsame
      have hlt := ht.fresh one hone
      simp only at hsame
      omega
    · rw [List.mem_singleton.1 hone] at hsame
      have hlt := ht.fresh other hother
      simp only at hsame
      omega
    · rw [List.mem_singleton.1 hone, List.mem_singleton.1 hother]
  · intro other hother
    rcases List.mem_append.1 hother with hother | hother
    · exact .inl ⟨other, hother, rfl, rfl⟩
    · exact .inr (by rw [List.mem_singleton.1 hother])

end Table

theorem Advances.keyed (h : Advances setup service t answer c o) (ht : t.Keyed) :
    o.table.Keyed ∧ t.Extends o.table := by
  rcases h.table with htable | ⟨id, now, reason, htable⟩ |
      ⟨m, g, now, adapterId, adapterKey, -, htable⟩ | ⟨request, g, seen, vram, -, htable⟩
  · rw [htable]
    exact ⟨ht, le_rfl, fun row hrow => .inl ⟨row, hrow, rfl, rfl⟩⟩
  · rw [htable]
    exact ht.close id now reason
  · exact ht.recordUse htable
  · exact ht.insert htable

/-! ### What a call has in reach -/

/-- The registration serves the model of an entry. -/
def Serves (setup : Setup) (service : String) (entry : Episode) : Prop :=
  (setup.models entry.modelId).providerName = service

/-- The entries of a list that are not in use are served by the registration. -/
def ServesIdle (setup : Setup) (service : String) (inUse : List String) (rest : List Episode) :
    Prop :=
  ∀ entry ∈ rest, inUse.contains entry.modelId = false → Serves setup service entry

/-- The entries of a list that are neither in use nor used lately are served by the
registration. -/
def ServesExpired (setup : Setup) (service : String) (now : Instant) (inUse : List String)
    (rest : List Episode) : Prop :=
  ∀ entry ∈ rest, inUse.contains entry.modelId = false →
    setup.unloadIdleAfter ≤ now - entry.lastUsedAt → Serves setup service entry

/-- **A reading that reaches no episode of another registration.**  Where `ensure_loaded` has to
make room, the idle episodes on its device are the registration's own; so are the expired ones
`evict_idle` reads, and those `sync` does not find reported. -/
def Scoped (setup : Setup) (service : String) (t : Table) : Call → Prop
  | .entering request => ∀ gpuIndex, request.gpuIndex = some gpuIndex →
      (request.loop t gpuIndex).wants setup.maxResidentModels = true →
        ServesIdle setup service request.inUse (request.loop t gpuIndex).rest
  | .idleEntering now inUse => ServesExpired setup service now inUse t.resident
  | .comparing _ reported => ∀ entry ∈ t.resident,
      reported.contains (setup.models entry.modelId).providerModelName = false →
        Serves setup service entry
  | _ => True

/-- What a call goes on to act upon is served by its registration. -/
def Within (setup : Setup) (service : String) : Call → Prop
  | .choosing l => l.wants setup.maxResidentModels = true →
      ServesIdle setup service l.request.inUse l.rest
  | .evicted l entry => Serves setup service entry ∧
      (l.wants setup.maxResidentModels = true → ServesIdle setup service l.request.inUse l.rest)
  | .idleChoosing now inUse rest => ServesExpired setup service now inUse rest
  | .idleEvicted now inUse entry rest => Serves setup service entry ∧
      ServesExpired setup service now inUse rest
  | .closing _ rest => ∀ entry ∈ rest, Serves setup service entry
  | _ => True

/-- The entries a call holds. -/
def Call.entries : Call → List Episode
  | choosing l => l.rest
  | evicted l entry => entry :: l.rest
  | idleChoosing _ _ rest | closing _ rest => rest
  | idleEvicted _ _ entry rest => entry :: rest
  | _ => []

theorem EvictionLoop.wants_after {l : EvictionLoop} {entry : Episode} {limit : ℕ}
    (h : (l.after entry).wants limit = true) : l.wants limit = true := by
  simp only [wants, after, Bool.or_eq_true, decide_eq_true_eq] at h ⊢
  rcases h with hfull | hroom
  · left
    have hle := of_decide_eq_true hfull
    omega
  · right
    cases hrequired : l.request.requiredBytes with
    | none =>
        rw [hrequired] at hroom
        cases hroom
    | some required =>
        cases hfree : l.free with
        | none =>
            rw [hrequired, hfree] at hroom
            cases hroom
        | some free =>
            rw [hrequired, hfree] at hroom
            have hlt : free + entry.vramBytes.getD 0 < required + l.request.headroomBytes :=
              of_decide_eq_true hroom
            simp only [Option.any_some, decide_eq_true_eq]
            omega

theorem Advances.within (h : Advances setup service t answer c o)
    (hscoped : Scoped setup service t c) (hwithin : Within setup service c) :
    Within setup service o.call := by
  cases h with
  | missing hgpu => exact hscoped _ hgpu
  | @spare l entry rest hrest | @unloadFails l entry rest hrest =>
      intro hwants e he
      exact hwithin hwants e (by rw [hrest]; exact List.mem_cons_of_mem _ he)
  | @unload l entry rest hrest hwants hidle =>
      refine ⟨hwithin hwants entry (by rw [hrest]; exact List.mem_cons_self) hidle, ?_⟩
      intro hwants e he
      exact hwithin hwants e (by rw [hrest]; exact List.mem_cons_of_mem _ he)
  | evict => exact fun hwants => hwithin.2 (EvictionLoop.wants_after hwants)
  | idleRead => exact hscoped
  | idleSpare | idleUnloadFails => exact fun e he => hwithin e (List.mem_cons_of_mem _ he)
  | idleUnload hidle hexpired =>
      exact ⟨hwithin _ List.mem_cons_self hidle hexpired,
        fun e he => hwithin e (List.mem_cons_of_mem _ he)⟩
  | idleEvict => exact hwithin.2
  | compared =>
      intro entry hentry
      obtain ⟨hresident, hunreported⟩ := List.mem_filter.1 hentry
      exact hscoped entry hresident (by simpa using hunreported)
  | close => exact fun e he => hwithin e (List.mem_cons_of_mem _ he)
  | _ => trivial

/-- An entry a call sends to its provider is served by the registration. -/
theorem Advances.serves (h : Advances setup service t answer c o)
    (hwithin : Within setup service c) {entry : Episode} (hunload : o.unload = some entry) :
    Serves setup service entry := by
  cases h with
  | unload hrest hwants hidle | unloadFails hrest hwants hidle =>
      cases hunload
      exact hwithin hwants _ (by rw [hrest]; exact List.mem_cons_self) hidle
  | idleUnload hidle hexpired | idleUnloadFails hidle hexpired =>
      cases hunload
      exact hwithin _ List.mem_cons_self hidle hexpired
  | _ => cases hunload

theorem Advances.entries (h : Advances setup service t answer c o) {entry : Episode}
    (hentry : entry ∈ o.call.entries) : entry ∈ c.entries ∨ entry ∈ t.resident := by
  cases h with
  | missing | compared => exact .inr (List.mem_filter.1 hentry).1
  | idleRead => exact .inr hentry
  | spare hrest | unloadFails hrest =>
      left
      rw [Call.entries, hrest]
      exact List.mem_cons_of_mem _ hentry
  | unload hrest =>
      left
      rw [Call.entries, hrest]
      exact hentry
  | idleUnload => exact .inl hentry
  | evict | idleSpare | idleUnloadFails | idleEvict | close =>
      exact .inl (List.mem_cons_of_mem _ hentry)
  | _ => cases hentry

/-- An episode a step closes is that of an entry the call holds, and the registration serves it. -/
theorem Advances.closed (h : Advances setup service t answer c o)
    (hwithin : Within setup service c) {m : String} {g id : ℕ} (hbefore : id ∈ t.openIds m g)
    (hafter : id ∉ o.table.openIds m g) :
    ∃ entry ∈ c.entries, entry.id = id ∧ Serves setup service entry := by
  have hclose : ∀ (closed : ℕ) now reason, id ∉ (t.close closed now reason).openIds m g →
      closed = id := by
    intro closed now reason hnot
    rw [Table.openIds_close, List.mem_filter, not_and] at hnot
    have heq := hnot hbefore
    simp only [bne_iff_ne, ne_eq, not_not] at heq
    exact heq.symm
  cases h with
  | evict | idleEvict => exact ⟨_, List.mem_cons_self, hclose _ _ _ hafter, hwithin.1⟩
  | close =>
      exact ⟨_, List.mem_cons_self, hclose _ _ _ hafter, hwithin _ List.mem_cons_self⟩
  | recorded huse =>
      refine absurd ?_ hafter
      rwa [(Table.openIds_recordUse _ _ huse).1]
  | inserted hinsert =>
      refine absurd ?_ hafter
      rw [(Table.openIds_insert _ _ rfl hinsert).1]
      exact List.mem_append_left _ hbefore
  | _ => exact absurd hbefore hafter

/-! ### The runs -/

namespace Services

variable {W : Type} [DecidableEq W] {s : Services W}

/-- No call reaches an episode of another registration as it reads. -/
def ReadsOwn (setup : Setup) (e : Step (Services W) (ServiceAct W)) : Prop :=
  match e.act with
  | .advance w _ => Scoped setup (e.pre.service w) e.pre.table (e.pre.calls w)
  | _ => True

/-- An episode that a step closes is of a model the calling registration serves. -/
def ClosesOwn (setup : Setup) (e : Step (Services W) (ServiceAct W)) : Prop :=
  match e.act with
  | .advance w _ => ∀ modelId gpuIndex, ∀ id ∈ e.pre.table.openIds modelId gpuIndex,
      id ∉ e.post.table.openIds modelId gpuIndex →
        (setup.models modelId).providerName = e.pre.service w
  | .begin .. => e.post.table = e.pre.table

/-- Every call acts within its registration, on entries the table knows. -/
structure Isolated (setup : Setup) (s : Services W) : Prop where
  keyed : s.table.Keyed
  within : ∀ w, Within setup (s.service w) (s.calls w)
  knows : ∀ w, ∀ entry ∈ (s.calls w).entries, s.table.Knows entry
  unloads : ∀ u ∈ s.unloads, Serves setup u.1 u.2

theorem Isolated.step (hs : s.Isolated setup) {a : ServiceAct W}
    (hreads : ReadsOwn setup ⟨s, a, s.after setup a⟩) (henabled : s.Enabled a) :
    (s.after setup a).Isolated setup := by
  cases a with
  | begin w service call =>
      have hstarts := henabled.2
      refine ⟨hs.keyed, ?_, ?_, hs.unloads⟩ <;> intro w'
      · simp only [after, Function.update_apply]
        split
        · cases call <;> trivial
        · exact hs.within w'
      · intro entry hentry
        simp only [after, Function.update_apply] at hentry
        split at hentry
        · cases call <;> first | cases hentry; done | cases hstarts
        · exact hs.knows w' entry hentry
  | advance w answer =>
      have hadvances := advances setup (s.service w) s.table answer (s.calls w)
      obtain ⟨hkeyed, hextends⟩ := hadvances.keyed hs.keyed
      refine ⟨hkeyed, ?_, ?_, ?_⟩
      · intro w'
        simp only [after, Function.update_apply]
        split
        · rename_i hw
          rw [hw]
          exact hadvances.within hreads (hs.within w)
        · exact hs.within w'
      · intro w' entry hentry
        refine Table.Knows.extends ?_ hextends
        simp only [after, Function.update_apply] at hentry
        split at hentry
        · rcases hadvances.entries hentry with hheld | hread
          · exact hs.knows w entry hheld
          · exact hs.keyed.knows hread
        · exact hs.knows w' entry hentry
      · intro u hu
        rcases List.mem_append.1 hu with hu | hu
        · obtain ⟨entry, hentry, rfl⟩ := List.mem_map.1 hu
          exact hadvances.serves (hs.within w) (Option.mem_toList.1 hentry)
        · exact hs.unloads u hu

theorem Isolated.closesOwn (hs : s.Isolated setup) (a : ServiceAct W) :
    ClosesOwn setup ⟨s, a, s.after setup a⟩ := by
  cases a with
  | begin w service call => rfl
  | advance w answer =>
      intro m g id hbefore hafter
      have hadvances := advances setup (s.service w) s.table answer (s.calls w)
      obtain ⟨entry, hentry, rfl, hserves⟩ := hadvances.closed (hs.within w) hbefore hafter
      obtain ⟨row, hrow, hid, rfl, -, -⟩ := Table.mem_openIds.1 hbefore
      rw [(hs.knows w entry hentry).2 row hrow hid]
      exact hserves

/-- **Registrations leave each other's models alone.**  From a well-formed table, in every run in
which no call reaches an episode of another registration as it reads, every episode that is closed
is of a model the calling registration serves, and every unload request goes to the registration
that serves the model. -/
theorem services_isolated {table : Table} (hstart : table.Keyed)
    {h : List (Step (Services W) (ServiceAct W))} (hrun : Run (system W setup table) h s)
    (hreads : ∀ e ∈ h, ReadsOwn setup e) :
    (∀ e ∈ h, ClosesOwn setup e) ∧ ∀ u ∈ s.unloads, Serves setup u.1 u.2 := by
  have hinit : Isolated setup ({ table } : Services W) := by
    refine ⟨hstart, ?_, ?_, ?_⟩
    · intro w
      trivial
    · intro w entry hentry
      cases hentry
    · intro u hu
      cases hu
  have hisolated : ∀ {h s}, Run (system W setup table) h s → (∀ e ∈ h, ReadsOwn setup e) →
      s.Isolated setup := by
    intro h s hrun hreads
    refine hrun.invariant_of_steps (C := ReadsOwn setup) ?_ ?_ hreads
    · rintro _ rfl
      exact hinit
    · rintro ⟨s, a, s'⟩ ⟨henabled, hpost⟩ hC hs
      obtain rfl : s' = s.after setup a := hpost
      exact hs.step hC henabled
  refine ⟨?_, (hisolated hrun hreads).unloads⟩
  intro e he
  obtain ⟨h₁, h₂, rfl⟩ := List.append_of_mem he
  obtain ⟨hpast, ⟨-, hpost⟩, -⟩ := hrun.past
  have hpre := hisolated hpast fun e' he' =>
    hreads e' (List.mem_append_right _ (List.mem_cons_of_mem _ he'))
  obtain ⟨s₀, a, s₁⟩ := e
  obtain rfl : s₁ = s₀.after setup a := hpost
  exact hpre.closesOwn a

/-! ### One registration synchronises the episodes of another -/

/-- Two registrations, each with a model of its own. -/
def twoProviders : Setup where
  models := fun id => if id = "m" then ⟨"m", "m", "local"⟩ else ⟨"n", "n", "remote"⟩

/-- A table with one open episode. -/
def oneEpisode (modelId : String) : Table where
  rows := [{ id := 0, modelId, gpuIndex := 0, loadedAt := 0, lastUsedAt := 0 }]
  nextId := 1

/-- The local provider reports nothing, and its service closes what it reads. -/
def localSync : List (ServiceAct ℕ) :=
  [.begin 1 "local" (.syncing 5), .advance 1 { reported := some [] }, .advance 1 {}, .advance 1 {}]

theorem oneEpisode_keyed (modelId : String) : (oneEpisode modelId).Keyed := by
  refine ⟨by simp [oneEpisode], ?_⟩
  intro row hrow other hother _
  rw [List.mem_singleton.1 hrow, List.mem_singleton.1 hother]

theorem localSync_run (modelId : String) :
    Run (system ℕ twoProviders (oneEpisode modelId))
      (trace (after twoProviders) { table := oneEpisode modelId } localSync)
      (localSync.foldl (after twoProviders) { table := oneEpisode modelId }) :=
  .replay ⟨⟨rfl, rfl⟩, rfl, rfl, rfl, trivial⟩

/-- A synchronisation over the registration's own episode. -/
theorem services_isolated_localSync :
    (∀ e ∈ trace (after twoProviders) { table := oneEpisode "m" } localSync,
        ClosesOwn twoProviders e) ∧
      ∀ u ∈ (localSync.foldl (after twoProviders) { table := oneEpisode "m" }).unloads,
        Serves twoProviders u.1 u.2 := by
  refine services_isolated (oneEpisode_keyed "m") (localSync_run "m") ?_
  refine forall_mem_trace ⟨trivial, trivial, ?_, trivial, trivial⟩
  intro entry hentry _
  rw [List.mem_singleton.1 hentry]
  rfl

/-- The local service closes the episode of a model of the other registration. -/
theorem localSync_closes_remote : ¬ ∀ table h (s : Services ℕ), table.Keyed →
    Run (system ℕ twoProviders table) h s → ∀ e ∈ h, ClosesOwn twoProviders e := by
  intro hclaim
  have hlast : (⟨[.begin 1 "local" (.syncing 5), .advance 1 { reported := some [] },
        .advance 1 {}].foldl (after twoProviders) { table := oneEpisode "n" }, .advance 1 {},
      localSync.foldl (after twoProviders) { table := oneEpisode "n" }⟩ :
        Step (Services ℕ) (ServiceAct ℕ)) ∈
      trace (after twoProviders) { table := oneEpisode "n" } localSync := List.mem_cons_self
  have howner := hclaim _ _ _ (oneEpisode_keyed "n") (localSync_run "n") _ hlast "n" 0 0
    (by decide) (by decide)
  exact absurd howner (by decide)

end Services

end LoadCoach.Residency
