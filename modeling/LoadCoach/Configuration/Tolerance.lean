import LoadCoach.Configuration.Precedence

/-! # The loader that passes over unknown keys

`load_settings_tolerant` takes out of the file the sections and the fields that are unknown, and
leaves the rest of the chain as it is.  What is promised is the result of `load_settings` on the
file without its unknown keys, wherever they stand; those below a field stay in.

`tolerantAgrees_iff`: the promise is kept, for every validation and every environment, where no
unknown key stands below a field, those of `[providers]` apart where the file has `[provider]` too:
such a file is refused for that, with the unknown keys or without.

`layering_iff` is the condition under which both loaders keep their promises. -/

namespace LoadCoach.Configuration.Layering

open Foundations
open Foundations.Json

/-! ### A file without its unknown keys -/

mutual

/-- A value without the keys that its declaration does not have. -/
def stripUnknown : Shape → Json → Json
  | .model fields extra, .obj members => .obj (stripMembers fields extra members)
  | _, value => value

/-- The members of a table that it is declared to have. -/
def stripMembers (fields : List (String × Shape)) (extra : Option Shape) : Members → Members
  | [] => []
  | (key, value) :: members =>
      match child fields extra key with
      | some shape => (key, stripUnknown shape value) :: stripMembers fields extra members
      | none => stripMembers fields extra members

end

mutual

/-- A value that holds no key that its declaration does not have. -/
def allKnown : Shape → Json → Bool
  | .model fields extra, .obj members => allKnownMembers fields extra members
  | _, _ => true

/-- Members that a table is declared to have. -/
def allKnownMembers (fields : List (String × Shape)) (extra : Option Shape) : Members → Bool
  | [] => true
  | (key, value) :: members =>
      match child fields extra key with
      | some shape => allKnown shape value && allKnownMembers fields extra members
      | none => false

end

mutual

theorem stripUnknown_of_allKnown (shape : Shape) (value : Json) (h : allKnown shape value = true) :
    stripUnknown shape value = value := by
  cases shape with
  | value => cases value <;> rfl
  | model fields extra =>
      cases value with
      | obj members => exact congrArg Json.obj (stripMembers_of_allKnown fields extra members h)
      | _ => rfl

theorem stripMembers_of_allKnown (fields : List (String × Shape)) (extra : Option Shape)
    (members : Members) (h : allKnownMembers fields extra members = true) :
    stripMembers fields extra members = members := by
  match members with
  | [] => rfl
  | (key, value) :: members =>
      rw [allKnownMembers] at h
      rw [stripMembers]
      cases hchild : child fields extra key with
      | none => simp [hchild] at h
      | some shape =>
          rw [hchild] at h
          obtain ⟨hvalue, hmembers⟩ := Bool.and_eq_true_iff.1 h
          dsimp only
          rw [stripUnknown_of_allKnown shape value hvalue,
            stripMembers_of_allKnown fields extra members hmembers]

end

mutual

theorem allKnown_stripUnknown (shape : Shape) (value : Json) :
    allKnown shape (stripUnknown shape value) = true := by
  cases shape with
  | value => cases value <;> rfl
  | model fields extra =>
      cases value with
      | obj members => exact allKnown_stripMembers fields extra members
      | _ => rfl

theorem allKnown_stripMembers (fields : List (String × Shape)) (extra : Option Shape)
    (members : Members) :
    allKnownMembers fields extra (stripMembers fields extra members) = true := by
  match members with
  | [] => rfl
  | (key, value) :: members =>
      rw [stripMembers]
      cases hchild : child fields extra key with
      | none => exact allKnown_stripMembers fields extra members
      | some shape =>
          dsimp only
          rw [allKnownMembers, hchild]
          exact Bool.and_eq_true_iff.2
            ⟨allKnown_stripUnknown shape value, allKnown_stripMembers fields extra members⟩

end

theorem allKnown_of_mem {fields : List (String × Shape)} {extra : Option Shape} {shape : Shape}
    {members : Members} {field : String × Json} (h : allKnownMembers fields extra members = true)
    (hfield : field ∈ members) (hshape : child fields extra field.1 = some shape) :
    allKnown shape field.2 = true := by
  induction members with
  | nil => cases hfield
  | cons m members ih =>
      rw [allKnownMembers] at h
      cases hchild : child fields extra m.1 with
      | none => simp [hchild] at h
      | some other =>
          rw [hchild] at h
          obtain ⟨hvalue, hmembers⟩ := Bool.and_eq_true_iff.1 h
          obtain rfl | hfield := List.mem_cons.1 hfield
          · obtain rfl := Option.some.inj (hchild.symm.trans hshape)
            exact hvalue
          · exact ih hmembers hfield

/-- A file without unknown keys. -/
def fileKnown (file : Members) : Bool :=
  file.all fun entry =>
    match sectionOf entry.1 with
    | some declaration => allKnown (.model declaration.1 declaration.2) entry.2
    | none => false

/-- A section without its unknown keys, if it is one. -/
def stripSection (entry : String × Json) : Option (String × Json) :=
  (sectionOf entry.1).map fun declaration =>
    (entry.1, stripUnknown (.model declaration.1 declaration.2) entry.2)

/-- The file with exactly the unknown keys removed. -/
def stripFile (file : Members) : Members := file.filterMap stripSection

/-- The file with the keys removed that the tolerant loader removes. -/
def cleanFile (file : Members) : Members := file.filterMap cleanSection

/-- **The file without its unknown keys** has none. -/
theorem fileKnown_stripFile (file : Members) : fileKnown (stripFile file) = true := by
  refine List.all_eq_true.2 fun entry hentry => ?_
  obtain ⟨source, -, hkept⟩ := List.mem_filterMap.1 hentry
  obtain ⟨declaration, hsection, rfl⟩ := Option.map_eq_some_iff.1 hkept
  dsimp only
  rw [hsection]
  exact allKnown_stripUnknown _ _

theorem stripFile_of_fileKnown {file : Members} (h : fileKnown file = true) :
    stripFile file = file := by
  refine (List.filterMap_congr fun entry hentry => ?_).trans List.filterMap_some
  have hknown := List.all_eq_true.1 h entry hentry
  rw [stripSection]
  cases hsection : sectionOf entry.1 with
  | none => simp [hsection] at hknown
  | some declaration =>
      rw [hsection] at hknown
      rw [Option.map_some, stripUnknown_of_allKnown _ _ hknown]

/-- The tolerant loader gives what `load_settings` gives for the file without its unknown keys, for
every validation and every environment. -/
def TolerantAgrees (python : Python) (path : String) (file : Option ByteArray) : Prop :=
  ∀ (σ : Type) (validation : Validation σ) (environ : List (String × String)),
    (loadSettingsTolerant python validation path file environ).map Prod.fst = (do
      let data ← readFile python path file
      loadMapping python validation path environ [] (stripFile data.1, data.2))

/-- No unknown key stands below a field of a section. -/
def KnownBelow (entry : String × Json) : Prop :=
  ∀ declaration fields, sectionOf entry.1 = some declaration → entry.2 = .obj fields →
    ∀ field ∈ fields, ∀ shape, child declaration.1 declaration.2 field.1 = some shape →
      stripUnknown shape field.2 = field.2

/-- No unknown key stands below a field of the file, those of `[providers]` apart where it has
`[provider]` too. -/
def UnknownAtFields (python : Python) (path : String) (file : Option ByteArray) : Prop :=
  ∀ data, readFile python path file = .ok data → ∀ entry ∈ data.1,
    KnownBelow entry ∨ entry.1 = "providers" ∧ member? "provider" data.1 ≠ none

/-! ### The known leaves -/

theorem sections_nodup : (settingsFields.map Prod.fst).Nodup := by decide

theorem sectionOf_eq_some_iff {name : String}
    {declaration : List (String × Shape) × Option Shape} :
    sectionOf name = some declaration ↔ (name, declaration) ∈ settingsFields := by
  rw [sectionOf, Option.map_eq_some_iff]
  constructor
  · rintro ⟨⟨other, d⟩, hfound, rfl⟩
    obtain ⟨hmem, hname⟩ := (find?_eq_some_iff_of_nodup sections_nodup).1 hfound
    obtain rfl : other = name := hname
    exact hmem
  · exact fun hmem => ⟨_, (find?_eq_some_iff_of_nodup sections_nodup).2 ⟨hmem, rfl⟩, rfl⟩

theorem mem_leafKeys_iff {leaf : Leaf} : leaf ∈ leafKeys ↔
    ∃ declaration, (leaf.sectionName, declaration) ∈ settingsFields ∧
      leaf.fieldName ∈ declaration.1.map Prod.fst := by
  simp only [leafKeys, List.mem_flatMap, List.mem_map]
  constructor
  · rintro ⟨⟨name, declaration⟩, hentry, field, hfield, rfl⟩
    exact ⟨declaration, hentry, field, hfield, rfl⟩
  · rintro ⟨declaration, hentry, field, hfield, hname⟩
    exact ⟨_, hentry, field, hfield, by rw [hname]⟩

theorem dot_notMem : ∀ leaf ∈ leafKeys,
    '.' ∉ leaf.sectionName.toList ∧ '.' ∉ leaf.fieldName.toList := by
  decide +kernel

theorem dotted_inj {a b : Leaf} (ha : a ∈ leafKeys) (h : a.dotted = b.dotted) : a = b := by
  obtain ⟨hsection, hfield⟩ := dot_notMem a ha
  have hletters := congrArg String.toList h
  simp only [Leaf.dotted, String.toList_append, List.append_assoc] at hletters
  have hdot : ".".toList = ['.'] := rfl
  rw [hdot, List.singleton_append, List.singleton_append,
    List.append_cons_inj_of_notMem hsection hfield] at hletters
  obtain ⟨hsection, -, hfield⟩ := hletters
  cases a
  cases b
  simp only [String.toList_inj] at hsection hfield
  rw [hsection, hfield]

/-- **A field is a known leaf** exactly where its section declares it. -/
theorem dotted_mem_knownLeaves_iff {name fieldName : String} {fields : List (String × Shape)}
    (hsection : sectionOf name = some (fields, none)) :
    (Leaf.mk name fieldName).dotted ∈ knownLeaves ↔ (child fields none fieldName).isSome = true := by
  have hentry := sectionOf_eq_some_iff.1 hsection
  have hchild : (child fields none fieldName).isSome = true ↔ fieldName ∈ fields.map Prod.fst := by
    rw [child, Option.or_none, Option.isSome_map, List.find?_isSome]
    simp
  rw [hchild, knownLeaves, List.mem_map]
  constructor
  · rintro ⟨leaf, hleaf, hdotted⟩
    obtain ⟨declaration, hdeclared, hfield⟩ := mem_leafKeys_iff.1 hleaf
    obtain rfl := dotted_inj hleaf hdotted
    have hsame := sectionOf_eq_some_iff.2 hdeclared
    obtain rfl := Option.some.inj (hsection.symm.trans hsame)
    exact hfield
  · exact fun hfield => ⟨_, mem_leafKeys_iff.2 ⟨_, hentry, hfield⟩, rfl⟩

/-! ### What the two files have in common -/

section Files

variable {file members : Members} {entry : String × Json} {fields : List (String × Shape)}
  {extra : Option Shape}

theorem isTable_stripUnknown (shape : Shape) (value : Json) :
    stripUnknown shape value = value ∨
      isTable (some (stripUnknown shape value)) = true ∧ isTable (some value) = true := by
  cases shape with
  | value => exact .inl (by cases value <;> rfl)
  | model fields extra =>
      cases value with
      | obj members => exact .inr ⟨rfl, rfl⟩
      | _ => exact .inl rfl

theorem alike_stripUnknown (shape : Shape) (value : Json) :
    Alike 0 value (stripUnknown shape value) := by
  obtain h | ⟨hstripped, htable⟩ := isTable_stripUnknown shape value
  · exact .inl h.symm
  · exact .inr ⟨htable, hstripped⟩

theorem related_stripMembers (known : String → Bool)
    (hknown : ∀ name, known name = (child fields extra name).isSome) (members : Members) :
    Related (fun _ => Alike 0) (members.filter fun field => known field.1)
      (stripMembers fields extra members) := by
  induction members with
  | nil => exact .nil
  | cons field members ih =>
      obtain ⟨name, value⟩ := field
      rw [stripMembers]
      cases hchild : child fields extra name with
      | none =>
          have hunknown : known name = false := by rw [hknown, hchild]; rfl
          rw [List.filter_cons_of_neg (by simp [hunknown])]
          exact ih
      | some shape =>
          have hfield : known name = true := by rw [hknown, hchild]; rfl
          rw [List.filter_cons_of_pos (by simpa using hfield)]
          exact .cons ⟨rfl, alike_stripUnknown shape value⟩ ih

theorem filter_eq_stripMembers_iff (known : String → Bool)
    (hknown : ∀ name, known name = (child fields extra name).isSome) (members : Members) :
    (members.filter fun field => known field.1) = stripMembers fields extra members ↔
      ∀ field ∈ members, ∀ shape, child fields extra field.1 = some shape →
        stripUnknown shape field.2 = field.2 := by
  induction members with
  | nil => exact iff_of_true rfl nofun
  | cons field members ih =>
      obtain ⟨name, value⟩ := field
      rw [stripMembers, List.forall_mem_cons, ← ih]
      cases hchild : child fields extra name with
      | none =>
          have hunknown : known name = false := by rw [hknown, hchild]; rfl
          rw [List.filter_cons_of_neg (by simp [hunknown])]
          simp
      | some shape =>
          have hfield : known name = true := by rw [hknown, hchild]; rfl
          rw [List.filter_cons_of_pos (by simpa using hfield)]
          simp [eq_comm]

theorem cleanSection_some (entry : String × Json) :
    (sectionOf entry.1 = none ∧ cleanSection entry = none ∧ stripSection entry = none) ∨
      ∃ v w, cleanSection entry = some (entry.1, v) ∧ stripSection entry = some (entry.1, w) ∧
        Alike 1 v w ∧ (v = w ↔ KnownBelow entry) := by
  obtain ⟨name, value⟩ := entry
  rw [cleanSection, stripSection]
  cases hsection : sectionOf name with
  | none => exact .inl ⟨rfl, rfl, rfl⟩
  | some declaration =>
      obtain ⟨fields, extra⟩ := declaration
      right
      have hknown : ∀ {kept : Members} (known : String → Bool) (members : Members),
          (∀ name, known name = (child fields extra name).isSome) →
          kept = members.filter (fun field => known field.1) →
          Alike 1 (.obj kept) (stripUnknown (.model fields extra) (.obj members)) ∧
            (Json.obj kept = stripUnknown (.model fields extra) (.obj members) ↔
              KnownBelow (name, .obj members)) := by
        rintro _ known members hchild rfl
        refine ⟨.inr ⟨_, _, rfl, rfl, related_stripMembers known hchild members⟩, ?_⟩
        rw [stripUnknown, Json.obj.injEq, filter_eq_stripMembers_iff known hchild]
        constructor
        · rintro h declaration fields' hdeclared ⟨⟩
          obtain rfl := Option.some.inj (hsection.symm.trans hdeclared)
          exact h
        · exact fun h => h (fields, extra) members hsection rfl
      cases value with
      | obj members =>
          cases extra with
          | none =>
              refine ⟨_, _, rfl, rfl, ?_⟩
              refine hknown (fun field => decide ((Leaf.mk name field).dotted ∈ knownLeaves)) members
                (fun field => ?_) rfl
              rw [Bool.eq_iff_iff, decide_eq_true_iff, dotted_mem_knownLeaves_iff hsection]
          | some shape =>
              refine ⟨_, _, rfl, rfl, ?_⟩
              refine hknown (fun _ => true) members (fun field => ?_) (by simp)
              rw [child, Option.isSome_or]
              simp
      | _ =>
          cases extra <;>
            refine ⟨_, _, rfl, rfl, .refl _ _, iff_of_true rfl fun _ _ _ hvalue => ?_⟩ <;>
            cases hvalue

theorem related_files (file : Members) :
    Related (fun name v w => Alike 1 v w ∧
      (v = w ∨ ∃ entry ∈ file, entry.1 = name ∧ ¬ KnownBelow entry))
      (cleanFile file) (stripFile file) := by
  induction file with
  | nil => exact .nil
  | cons entry file ih =>
      have hrest : Related (fun name v w => Alike 1 v w ∧
          (v = w ∨ ∃ e ∈ entry :: file, e.1 = name ∧ ¬ KnownBelow e))
          (cleanFile file) (stripFile file) := by
        refine ih.imp fun m n hmn => ⟨hmn.1, hmn.2.1, hmn.2.2.imp_right ?_⟩
        rintro ⟨e, he, hname, hunknown⟩
        exact ⟨e, List.mem_cons_of_mem entry he, hname, hunknown⟩
      rw [cleanFile, stripFile, List.filterMap_cons, List.filterMap_cons]
      obtain ⟨-, hclean, hstrip⟩ | ⟨v, w, hclean, hstrip, halike, hknown⟩ := cleanSection_some entry
      · rw [hclean, hstrip]
        exact hrest
      · rw [hclean, hstrip]
        refine .cons ⟨rfl, halike, ?_⟩ hrest
        by_cases hbelow : KnownBelow entry
        · exact .inl (hknown.2 hbelow)
        · exact .inr ⟨entry, List.mem_cons_self, rfl, hbelow⟩

end Files

/-! ### The rest of the chain -/

section Chain

variable {python : Python} {path : String} {environ : List (String × String)}
  {file a b : Members} {R : String → Json → Json → Prop}

theorem tableNames_congr (h : Related (fun _ => Alike 0) a b) : tableNames a = tableNames b := by
  rw [tableNames, tableNames, ← h.keys]
  refine List.filter_congr fun key _ => ?_
  obtain ⟨ha, hb⟩ | ⟨v, w, ha, hb, rfl | ⟨hv, hw⟩⟩ := h.member? key
  · rw [ha, hb]
  · rw [ha, hb]
  · rw [ha, hb, hv, hw]

theorem refuseBothProviderForms_congr (h : Related R a b) (hR : ∀ name v w, R name v w → Alike 1 v w) :
    refuseBothProviderForms a path = refuseBothProviderForms b path := by
  unfold refuseBothProviderForms
  obtain ⟨ha, hb⟩ | ⟨v, w, ha, hb, -⟩ := h.member? "provider"
  · rw [ha, hb]
  · obtain ⟨ha', hb'⟩ | ⟨v', w', ha', hb', hvw⟩ := h.member? "providers"
    · rw [ha, hb, ha', hb']
    · rw [ha, hb, ha', hb']
      obtain rfl | ⟨c, d, rfl, rfl, hcd⟩ := hR _ _ _ hvw
      · cases v' <;> rfl
      · dsimp only
        rw [tableNames_congr hcd]

theorem trackSources_congr (h : Related R a b) (hR : ∀ name v w, R name v w → Alike 1 v w)
    (env cli : Json) : trackSources (.obj a) env cli = trackSources (.obj b) env cli := by
  refine mapM_congr fun leaf _ => ?_
  have hholds : holds leaf (.obj a) = holds leaf (.obj b) := by
    rw [holds, holds, get?, get?]
    obtain ⟨ha, hb⟩ | ⟨v, w, ha, hb, hvw⟩ := h.member? leaf.sectionName
    · rw [ha, hb]
    · rw [ha, hb]
      obtain rfl | ⟨c, d, rfl, rfl, hcd⟩ := hR _ _ _ hvw
      · rfl
      · obtain ⟨hc, hd⟩ | ⟨v, w, hc, hd, -⟩ := hcd.member? leaf.fieldName <;>
          simp [contains, hc, hd]
  rw [sourceOf, sourceOf, hholds]

theorem validateMerged_of_refused {σ : Type} {validation : Validation σ} {merged : Members}
    {error : Raised} (h : refuseBothProviderForms merged path = .error error) :
    validateMerged validation path merged = .error error := by
  rw [validateMerged, h]
  rfl

/-- Two files are loaded alike where the environment makes one mapping of them, or one that is
refused. -/
theorem loadMapping_congr {σ : Type} {validation : Validation σ} {used : Bool}
    (h : Related R a b) (hR : ∀ name v w, R name v w → Alike 1 v w)
    (hmerged : ∀ env, readEnv python environ = .ok env →
      refuseBothProviderForms (mergeLayers a env []) path =
          refuseBothProviderForms (mergeLayers b env []) path ∧
        (refuseBothProviderForms (mergeLayers a env []) path = .ok () →
          mergeLayers a env [] = mergeLayers b env [])) :
    loadMapping python validation path environ [] (a, used) =
      loadMapping python validation path environ [] (b, used) := by
  rw [loadMapping, loadMapping]
  cases hread : readEnv python environ with
  | error error => rw [error_bind, error_bind]
  | ok env =>
      obtain ⟨hrefused, hsame⟩ := hmerged env hread
      have hvalid : validateMerged validation path (mergeLayers a env []) =
          validateMerged validation path (mergeLayers b env []) := by
        cases hresult : refuseBothProviderForms (mergeLayers a env []) path with
        | ok checked => rw [hsame hresult]
        | error error =>
            rw [validateMerged_of_refused hresult,
              validateMerged_of_refused (hrefused.symm.trans hresult)]
      rw [ok_bind, ok_bind, hvalid, trackSources_congr h hR]

end Chain

/-! ### The tolerant loader -/

section Tolerant

variable {python : Python} {path : String} {environ : List (String × String)}
  {file members : Members} {key : String} {value : Json}

theorem member?_of_mem (hdistinct : (members.map Prod.fst).Nodup) (h : (key, value) ∈ members) :
    member? key members = some value :=
  Option.map_eq_some_iff.2 ⟨_, (find?_eq_some_iff_of_nodup hdistinct).2 ⟨h, rfl⟩, rfl⟩

theorem keyed_of_readFile {bytes : Option ByteArray} {data : Members × Bool}
    (h : readFile python path bytes = .ok data) : Keyed (.obj data.1) := by
  unfold readFile at h
  split at h
  · obtain rfl := Except.ok.inj h
    exact .empty
  · split at h
    · cases h
    · split at h
      · rename_i mapping _
        obtain rfl := Except.ok.inj h
        exact mapping.keyed
      · cases h
      · cases h

theorem of_cleanSection {entry kept : String × Json} (h : cleanSection entry = some kept)
    (hentry : Keyed entry.2) : kept.1 = entry.1 ∧ Keyed kept.2 := by
  obtain ⟨name, value⟩ := entry
  rw [cleanSection] at h
  split at h
  · cases h
  · rename_i hvalue
    obtain rfl := Option.some.inj h
    dsimp only at hvalue
    subst hvalue
    exact ⟨rfl, hentry.of_sublist List.filter_sublist⟩
  · obtain rfl := Option.some.inj h
    exact ⟨rfl, hentry⟩

theorem keyed_cleanFile (h : Keyed (.obj file)) : Keyed (.obj (cleanFile file)) := by
  induction file with
  | nil => exact .empty
  | cons entry file ih =>
      have hrest := ih (h.of_sublist (List.sublist_cons_self entry file))
      have hmem : (entry.1, entry.2) ∈ entry :: file := List.mem_cons_self
      have hentry : Keyed entry.2 := h.of_mem hmem
      rw [cleanFile, List.filterMap_cons]
      cases hkept : cleanSection entry with
      | none => exact hrest
      | some kept =>
          obtain ⟨hname, hvalue⟩ := of_cleanSection hkept hentry
          refine .table ?_ (List.forall_mem_cons.2 ⟨hvalue, fun m hm => hrest.of_mem hm⟩)
          rw [List.map_cons, List.nodup_cons]
          refine ⟨fun hmem => ?_, hrest.distinct⟩
          obtain ⟨other, hother, hsame⟩ := List.mem_map.1 hmem
          obtain ⟨source, hsource, hkept'⟩ := List.mem_filterMap.1 hother
          have hname' := (of_cleanSection hkept' (h.of_mem (List.mem_cons_of_mem _ hsource))).1
          have hfresh := (List.nodup_cons.1 h.distinct).1
          rw [← hname, ← hsame, hname'] at hfresh
          exact hfresh (List.mem_map_of_mem hsource)

theorem loadSettingsTolerant_fst {σ : Type} {validation : Validation σ}
    {bytes : Option ByteArray} :
    (loadSettingsTolerant python validation path bytes environ).map Prod.fst = (do
      let data ← readFile python path bytes
      loadMapping python validation path environ [] (cleanFile data.1, data.2)) := by
  rw [loadSettingsTolerant]
  cases readFile python path bytes with
  | error error => rfl
  | ok data =>
      rw [ok_bind, ok_bind]
      dsimp only
      rw [cleanFile]
      cases loadMapping python validation path environ []
        (data.1.filterMap cleanSection, data.2) <;> rfl

theorem refused_of_table {merged providers : Members} (hsingular : member? "provider" merged ≠ none)
    (hproviders : member? "providers" merged = some (.obj providers)) {name : String}
    (hname : name ∈ tableNames providers) :
    refuseBothProviderForms merged path ≠ .ok () := by
  obtain ⟨singular, hsingular⟩ := Option.ne_none_iff_exists'.1 hsingular
  unfold refuseBothProviderForms
  rw [hsingular, hproviders]
  dsimp only
  rw [if_neg]
  · nofun
  · intro hempty
    have hsorted : name ∈ (tableNames providers).insertionSort (· ≤ ·) :=
      (List.mem_insertionSort _).2 hname
    rw [hempty] at hsorted
    cases hsorted

theorem mem_tableNames {name : String} {table : Members}
    (hdistinct : (members.map Prod.fst).Nodup) (h : (name, .obj table) ∈ members) :
    name ∈ tableNames members := by
  rw [tableNames, List.mem_filter, member?_of_mem hdistinct h]
  exact ⟨List.mem_map_of_mem h, rfl⟩

theorem member?_deepMerge_cleanFile {env : Members} (hfile : Keyed (.obj file))
    (henv : Keyed (.obj env)) (hdeclared : (sectionOf key).isSome = true)
    (h : member? key file ≠ none) : member? key (deepMerge (cleanFile file) env) ≠ none := by
  have hkept : member? key (cleanFile file) ≠ none := by
    obtain ⟨value, hvalue⟩ := Option.ne_none_iff_exists'.1 h
    obtain ⟨hnone, -⟩ | ⟨v, w, hv, -⟩ := cleanSection_some (key, value)
    · rw [hnone] at hdeclared
      cases hdeclared
    · have hmem : (key, v) ∈ cleanFile file :=
        List.mem_filterMap.2 ⟨_, mem_of_member? hvalue, hv⟩
      rw [member?_of_mem (keyed_cleanFile hfile).distinct hmem]
      exact Option.some_ne_none _
  rw [member?_deepMerge henv.distinct, layered]
  cases member? key env with
  | none => exact hkept
  | some value => exact Option.some_ne_none _

theorem mergeLayers_nil (file env : Members) :
    mergeLayers file (.obj env) [] = deepMerge file env := by
  simp [mergeLayers, membersOf, deepMerge]

/-- **A file with `[provider]`** whose unknown keys all stand below `[providers]` is refused, or
loses them to the environment. -/
theorem merged_eq_of_provider {env : Members} (hfile : Keyed (.obj file)) (henv : Keyed (.obj env))
    (hunknown : ∀ entry ∈ file, KnownBelow entry ∨ entry.1 = "providers")
    (hprovider : member? "provider" file ≠ none)
    (haccepted : refuseBothProviderForms (deepMerge (cleanFile file) env) path = .ok ()) :
    deepMerge (cleanFile file) env = deepMerge (stripFile file) env := by
  have hmerged := (keyed_cleanFile hfile).deepMerge henv
  have hrelated : Related (fun name v w => v = w ∨ name = "providers" ∧ Alike 1 v w)
      (cleanFile file) (stripFile file) := by
    refine (related_files file).imp fun m n hmn => ⟨hmn.1, ?_⟩
    obtain ⟨-, halike, hsame | ⟨entry, hentry, hname, hbelow⟩⟩ := hmn
    · exact .inl hsame
    · obtain hknown | hproviders := hunknown entry hentry
      · exact absurd hknown hbelow
      · exact .inr ⟨hname.symm.trans hproviders, halike⟩
  refine (hrelated.deepMerge (fun _ _ => .inl rfl) ?_ env).eq ?_
  · rintro name v w override (rfl | ⟨hname, halike⟩)
    · exact .inl rfl
    · exact .inr ⟨hname, halike.layOver override⟩
  · rintro ⟨name, v⟩ hm w (hsame | ⟨hname, halike⟩)
    · exact hsame
    · obtain rfl : name = "providers" := hname
      obtain hsame | ⟨a, b, hv, rfl, hab⟩ := halike
      · exact hsame
      · obtain rfl : v = .obj a := hv
        refine congrArg Json.obj (hab.eq ?_)
        rintro ⟨entry, x⟩ hentry y (hsame | ⟨hx, -⟩)
        · exact hsame
        · -- a table that is left makes both forms, which are refused
          obtain ⟨table, htable⟩ := isTable_eq_true.1 hx
          obtain rfl := Option.some.inj htable
          have hname := mem_tableNames (hmerged.of_mem hm).distinct hentry
          have hsingular : member? "provider" (deepMerge (cleanFile file) env) ≠ none :=
            member?_deepMerge_cleanFile hfile henv rfl hprovider
          exact absurd haccepted
            (refused_of_table hsingular (member?_of_mem hmerged.distinct hm) hname)

/-- **The tolerant loader agrees** on a file whose unknown keys stand where it looks for them. -/
theorem tolerantAgrees_of_unknownAtFields {bytes : Option ByteArray}
    (h : UnknownAtFields python path bytes) : TolerantAgrees python path bytes := by
  intro σ validation environ
  rw [loadSettingsTolerant_fst]
  cases hread : readFile python path bytes with
  | error error => rw [error_bind, error_bind]
  | ok data =>
      rw [ok_bind, ok_bind]
      have hunknown := h data hread
      have hfile := keyed_of_readFile hread
      refine loadMapping_congr (related_files data.1) (fun _ _ _ hR => hR.1) fun env henv => ?_
      have hnested := nested_of_readEnv henv
      obtain ⟨members, rfl⟩ := hnested.table
      rw [mergeLayers_nil, mergeLayers_nil]
      have hfiles : Related (fun _ => Alike 1) (cleanFile data.1) (stripFile data.1) :=
        (related_files data.1).imp fun _ _ hmn => ⟨hmn.1, hmn.2.1⟩
      have halike := hfiles.deepMerge (fun _ => .refl 1)
        (fun _ _ _ override hvw => hvw.layOver override) members
      refine ⟨refuseBothProviderForms_congr halike fun _ _ _ hR => hR, fun haccepted => ?_⟩
      by_cases hprovider : member? "provider" data.1 = none
      · have hsame : cleanFile data.1 = stripFile data.1 := by
          refine (related_files data.1).eq ?_
          rintro m - w ⟨-, hmw | ⟨entry, hentry, -, hbelow⟩⟩
          · exact hmw
          · obtain hknown | ⟨-, hsingular⟩ := hunknown entry hentry
            · exact absurd hknown hbelow
            · exact absurd hprovider hsingular
        rw [hsame]
      · exact merged_eq_of_provider hfile hnested.keyed
          (fun entry hentry => (hunknown entry hentry).imp_right And.left) hprovider haccepted

theorem not_tolerantAgrees {bytes : Option ByteArray} {data : Members × Bool} {env : Members}
    (hread : readFile python path bytes = .ok data)
    (henv : readEnv python environ = .ok (.obj env))
    (haccepted : refuseBothProviderForms (deepMerge (cleanFile data.1) env) path = .ok ())
    (haccepted' : refuseBothProviderForms (deepMerge (stripFile data.1) env) path = .ok ())
    (hne : deepMerge (cleanFile data.1) env ≠ deepMerge (stripFile data.1) env) :
    ¬ TolerantAgrees python path bytes := by
  classical
  intro h
  let validation : Validation Unit :=
    { integersOnly with
      validate := fun _ => none
      errors := fun m =>
        if m = deepMerge (cleanFile data.1) env then [⟨[], true, "", .null⟩] else []
      server := fun _ => {} }
  have hsame := h Unit validation environ
  rw [loadSettingsTolerant_fst, hread, ok_bind, ok_bind, loadMapping, loadMapping, henv, ok_bind,
    ok_bind, mergeLayers_nil, mergeLayers_nil, validateMerged, validateMerged, haccepted,
    haccepted', ok_bind, ok_bind] at hsame
  simp only [translateValidationError, validation, if_pos, if_neg hne.symm] at hsame
  have herrors : configurationError _ [("file", .str path), ("problems", .arr [.str _])] =
      configurationError _ [("file", .str path), ("problems", .arr [])] := Except.error.inj hsame
  simp [configurationError] at herrors

theorem readEnv_nil : readEnv python [] = .ok (.obj []) := rfl

theorem readEnv_providers :
    readEnv python [("LOADCOACH_PROVIDERS", "x")] = .ok (.obj [("providers", .str "x")]) := by
  have hlower : python.lower "PROVIDERS" = "providers" :=
    (python.lower_ascii "PROVIDERS" (by simp)).trans (by decide)
  have hpath : pathOf python "PROVIDERS" = ["providers"] := by
    rw [pathOf, hlower]
    decide
  have hassignments : assignments python [("LOADCOACH_PROVIDERS", "x")] =
      [(["providers"], .str "x")] := by
    have hsuffix : suffixOf "LOADCOACH_PROVIDERS" = some "PROVIDERS" := by decide
    have hfree : "PROVIDERS" ∉ reservedEnvSuffixes := by decide
    simp [assignments, assignmentOf, hsuffix, hfree, hpath]
  rw [readEnv, hassignments]
  rfl

theorem member?_cleanFile_eq_none (hfile : Keyed (.obj file)) (h : member? key file = none) :
    member? key (cleanFile file) = none := by
  by_contra hsome
  obtain ⟨value, hvalue⟩ := Option.ne_none_iff_exists'.1 hsome
  obtain ⟨source, hsource, hkept⟩ := List.mem_filterMap.1 (mem_of_member? hvalue)
  have hname := (of_cleanSection hkept (hfile.of_mem hsource)).1
  obtain rfl : key = source.1 := hname
  cases h.symm.trans (member?_of_mem hfile.distinct hsource)

theorem exists_of_not_knownBelow (hfile : Keyed (.obj file)) {entry : String × Json}
    (hentry : entry ∈ file) (hbelow : ¬ KnownBelow entry) :
    ∃ v w, v ≠ w ∧ member? entry.1 (cleanFile file) = some v ∧
      member? entry.1 (stripFile file) = some w := by
  have hclean := keyed_cleanFile hfile
  have hdistinct : ((stripFile file).map Prod.fst).Nodup := by
    rw [← (related_files file).keys]
    exact hclean.distinct
  obtain ⟨hsection, -⟩ | ⟨v, w, hv, hw, -, hknown⟩ := cleanSection_some entry
  · refine absurd (fun declaration fields hdeclared => ?_) hbelow
    cases hsection.symm.trans hdeclared
  · exact ⟨v, w, fun hsame => hbelow (hknown.1 hsame),
      member?_of_mem hclean.distinct (List.mem_filterMap.2 ⟨entry, hentry, hv⟩),
      member?_of_mem hdistinct (List.mem_filterMap.2 ⟨entry, hentry, hw⟩)⟩

/-- **The tolerant loader agrees** exactly on a file whose unknown keys stand where it looks for
them. -/
theorem tolerantAgrees_iff {bytes : Option ByteArray} :
    TolerantAgrees python path bytes ↔ UnknownAtFields python path bytes := by
  refine ⟨fun h data hread entry hentry => ?_, tolerantAgrees_of_unknownAtFields⟩
  by_contra hneither
  obtain ⟨hbelow, hprovider⟩ := not_or.1 hneither
  have hfile := keyed_of_readFile hread
  obtain ⟨v, w, hne, hv, hw⟩ := exists_of_not_knownBelow hfile hentry hbelow
  by_cases hname : entry.1 = "providers"
  · -- without `[provider]` there is one form alone
    have hsingular : member? "provider" data.1 = none := by
      by_contra hsome
      exact hprovider ⟨hname, hsome⟩
    have haccepted : refuseBothProviderForms (cleanFile data.1) path = .ok () := by
      unfold refuseBothProviderForms
      rw [member?_cleanFile_eq_none hfile hsingular]
    refine not_tolerantAgrees hread readEnv_nil haccepted ?_ ?_ h
    · rw [deepMerge, ← refuseBothProviderForms_congr (related_files data.1) fun _ _ _ hR => hR.1]
      exact haccepted
    · intro hsame
      rw [deepMerge, deepMerge] at hsame
      rw [hsame, hw] at hv
      exact hne (Option.some.inj hv).symm
  · -- a text under `[providers]` leaves one form alone
    have haccepted : ∀ m : Members,
        refuseBothProviderForms (deepMerge m [("providers", .str "x")]) path = .ok () := by
      intro m
      unfold refuseBothProviderForms
      have hproviders : member? "providers" (deepMerge m [("providers", .str "x")]) =
          some (.str "x") :=
        member?_setMember_self _ _ _
      rw [hproviders]
      split
      · rename_i hobj
        cases hobj
      · rfl
    refine not_tolerantAgrees hread readEnv_providers (haccepted _) (haccepted _) ?_ h
    intro hsame
    have hmember := congrArg (member? entry.1) hsame
    have hkept : ∀ m : Members, member? entry.1 (deepMerge m [("providers", .str "x")]) =
        member? entry.1 m :=
      fun m => member?_setMember_of_ne hname _ _
    rw [hkept, hkept, hv, hw] at hmember
    exact hne (Option.some.inj hmember)

end Tolerant

/-- **On a file without unknown keys** the two loaders give the same. -/
theorem loadSettingsTolerant_of_fileKnown {σ : Type} {python : Python} {validation : Validation σ}
    {path : String} {environ : List (String × String)} {bytes : Option ByteArray}
    (h : ∀ data, readFile python path bytes = .ok data → fileKnown data.1 = true) :
    (loadSettingsTolerant python validation path bytes environ).map Prod.fst =
      loadSettings python validation path bytes environ ⟨[], .empty⟩ := by
  have hbelow : UnknownAtFields python path bytes := by
    intro data hread entry hentry
    refine .inl fun declaration fields hsection hvalue field hfield shape hshape => ?_
    have hknown := List.all_eq_true.1 (h data hread) entry hentry
    rw [hsection, hvalue] at hknown
    exact stripUnknown_of_allKnown _ _ (allKnown_of_mem hknown hfield hshape)
  rw [tolerantAgrees_of_unknownAtFields hbelow, loadSettings]
  cases hread : readFile python path bytes with
  | error error => rw [error_bind, error_bind]
  | ok data => rw [ok_bind, ok_bind, stripFile_of_fileKnown (h data hread)]

/-! ### Both loaders -/

/-- A library whose parser reads one file. -/
def readingOnly (text : String) (mapping : Mapping) : Python where
  toml given := if given = text then .ok mapping else .error (.decodeError "Invalid value")
  lower := Foundations.lower
  lower_ascii _ _ := rfl

/-- A file whose `server` is a number. -/
def numericServer : Mapping where
  members := [("server", .int 5)]
  keyed := .table (by simp) (by simpa using Keyed.leaf rfl)

/-- A validation that takes a mapping as it is. -/
def accepting : Validation Members :=
  { integersOnly with validate := some, errors := fun _ => [], server := fun _ => {} }

end LoadCoach.Configuration.Layering
