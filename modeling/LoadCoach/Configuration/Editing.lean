import LoadCoach.Configuration.Described
import LoadCoach.Configuration.Providers
import LoadCoach.Foundations.Transition

/-! # Configuration edits and the next start

The configuration file under any sequence of edits.  An accepted edit was loaded before it landed,
so its result loads (`Edit.run_eq_ok`); nothing there asks whether the registrations it leaves
enabled can be built, or whether any is.

`Keeps` is what an edit needs for that, of the state it starts from.  `serving_iff_keeps` says that
for one edit it is exact: the other registrations are those the edit started from (`Beside`), a
singular block among them as the registration it is folded into.  `edits_serve_iff` carries this
over runs of edits. -/

namespace LoadCoach.Configuration

open Foundations
open Foundations.Json

/-! ### Edits -/

/-- A call of `save_registration` or of `delete_registration`. -/
inductive Edit where
  | save (name : String) (values : Members) (baseDigest : Option String)
  | delete (name : String) (baseDigest : Option String)

/-- The registration an edit names. -/
def Edit.name : Edit → String
  | save name _ _ => name
  | delete name _ => name

/-- What an edit returns, and the files it leaves. -/
def Edit.run (H : Host) (path : String) (files : ConfigFiles) :
    Edit → Except Raised Unit × ConfigFiles
  | save name values baseDigest => saveRegistration H path files name values baseDigest
  | delete name baseDigest => deleteRegistration H path files name baseDigest

/-- The edit is accepted. -/
def Edit.Accepted (H : Host) (path : String) (files : ConfigFiles) (edit : Edit) : Prop :=
  (edit.run H path files).1 = .ok ()

/-- The name a singular block is folded under: its kind. -/
def kindOf (singular : Members) : String := ((member? "kind" singular).map textOf).getD "ollama"

/-- The `[providers]` table of a file, a singular block folded into it. -/
def foldedOf (file : Option Members) : Members :=
  match member? "provider" (file.getD []) with
  | some (.obj singular) =>
      setMember (kindOf singular) (.obj (popMember "fake" singular)) (providersOf file)
  | _ => providersOf file

/-- What an edit writes under the name: the values over the table that stood there, or nothing. -/
def Edit.own (file : Option Members) : Edit → Option Json
  | save name values _ => some (.obj (writeFields values (tableAt name (foldedOf file))))
  | delete _ _ => none

/-- What an accepted edit does to the file. -/
structure Edited (file : Option Members) (edit : Edit) (file' : Option Members) : Prop where
  unfolded : member? "provider" (file'.getD []) = none
  own : member? edit.name (providersOf file') = edit.own file
  frame : ∀ name, name ≠ edit.name →
    member? name (providersOf file') = member? name (foldedOf file)
  stood : edit.own file = none → member? edit.name (foldedOf file) ≠ none
  block : ∀ singular, member? "provider" (file.getD []) = some singular →
    ∃ table, singular = .obj table

section Document

variable {document rest providers document' : Members} {file : Option Members}

theorem tableAt_of_getD {key : String} {members table : Members}
    (h : (member? key members).getD (.obj []) = .obj table) : tableAt key members = table := by
  cases hstated : member? key members with
  | none =>
      rw [hstated] at h
      simpa [tableAt, hstated] using h
  | some value =>
      rw [hstated, Option.getD_some] at h
      exact tableAt_of_member? (hstated.trans (congrArg some h))

theorem providersTable_eq_ok (h : providersTable (file.getD []) = .ok (rest, providers)) :
    member? "provider" rest = none ∧ providers = foldedOf file ∧
      ∀ singular, member? "provider" (file.getD []) = some singular →
        ∃ table, singular = .obj table := by
  rw [providersTable] at h
  split at h
  · rename_i table htable
    have hproviders : providersOf file = table := tableAt_of_getD htable
    split at h
    · rename_i hnone
      obtain ⟨rfl, rfl⟩ := Prod.mk.inj (Except.ok.inj h)
      refine ⟨hnone, ?_, ?_⟩
      · simp only [foldedOf, hnone, hproviders]
      · intro singular hsingular
        cases hnone.symm.trans hsingular
    · rename_i singular hsingular
      obtain ⟨rfl, rfl⟩ := Prod.mk.inj (Except.ok.inj h)
      refine ⟨member?_popMember_self _ _, ?_, ?_⟩
      · simp only [foldedOf, hsingular, hproviders, kindOf]
      · intro singular' hsingular'
        exact ⟨singular, Option.some.inj (hsingular'.symm.trans hsingular)⟩
    · cases h
  · cases h

/-- The document an edit makes: the rest of the file around the `[providers]` table in which the
edited key alone changed. -/
theorem edited_of_setMember {edit : Edit} {written : Members}
    (hrest : member? "provider" rest = none)
    (hown : member? edit.name written = edit.own file)
    (hframe : ∀ name, name ≠ edit.name → member? name written = member? name (foldedOf file))
    (hstood : edit.own file = none → member? edit.name (foldedOf file) ≠ none)
    (hblock : ∀ singular, member? "provider" (file.getD []) = some singular →
      ∃ table, singular = .obj table) :
    Edited file edit (some (setMember "providers" (.obj written) rest)) := by
  have hwritten : providersOf (some (setMember "providers" (.obj written) rest)) = written :=
    tableAt_setMember_self _ _ _
  refine ⟨?_, ?_, ?_, hstood, hblock⟩
  · rw [Option.getD_some, member?_setMember_of_ne (by decide)]
    exact hrest
  · rw [hwritten, hown]
  · rw [hwritten]
    exact hframe

theorem saveEdit_eq_ok {name : String} {values : Members} {baseDigest : Option String}
    (h : saveEdit name values (file.getD []) = .ok document') :
    Edited file (.save name values baseDigest) (some document') := by
  obtain ⟨⟨rest, providers⟩, hfold, h⟩ := bind_eq_ok.1 h
  obtain ⟨hrest, rfl, hblock⟩ := providersTable_eq_ok hfold
  dsimp only at h
  split at h
  · rename_i table htable
    obtain ⟨⟨⟩, -, h⟩ := bind_eq_ok.1 h
    obtain ⟨⟨⟩, -, h⟩ := bind_eq_ok.1 h
    obtain rfl := pure_eq_ok.1 h
    obtain rfl := tableAt_of_getD htable
    refine edited_of_setMember hrest (member?_setMember_self _ _ _) ?_ ?_ hblock
    · exact fun other hother => member?_setMember_of_ne hother _ _
    · exact fun hnone => nomatch hnone
  · cases h

theorem deleteEdit_eq_ok {name : String} {baseDigest : Option String}
    (h : deleteEdit name (file.getD []) = .ok document') :
    Edited file (.delete name baseDigest) (some document') := by
  obtain ⟨⟨rest, providers⟩, hfold, h⟩ := bind_eq_ok.1 h
  obtain ⟨hrest, rfl, hblock⟩ := providersTable_eq_ok hfold
  by_cases hstood : member? name (foldedOf file) = none
  · simp only [hstood, if_true] at h
    cases h
  by_cases hlast : (tableNames (foldedOf file)).filter (· ≠ name) = []
  · simp only [hstood, hlast, if_true, if_false] at h
    cases h
  simp only [hstood, hlast, if_false] at h
  obtain rfl := pure_eq_ok.1 h
  refine edited_of_setMember hrest (member?_popMember_self _ _) ?_ (fun _ => hstood) hblock
  exact fun other hother => member?_popMember_of_ne hother _

end Document

variable {H : Host} {path : String} {files : ConfigFiles} {edit : Edit}

theorem write_accepted {baseDigest : Option String} {change : Members → Except Raised Members}
    (h : (write H path files baseDigest change).1 = .ok ()) :
    ∃ document settings, change (files.config.getD []) = .ok document ∧
      (write H path files baseDigest change).2.config = some document ∧
      loadSettings H path (some document) = .ok settings := by
  rw [write] at h ⊢
  split at h
  · cases h
  · rename_i hfresh
    rw [if_neg hfresh]
    split at h
    · cases h
    · rename_i document hdocument
      rw [validated] at h ⊢
      split at h
      · cases h
      · rename_i settings hsettings
        exact ⟨document, settings, hdocument, rfl, loadSettings_of_path hsettings⟩

theorem write_refused {baseDigest : Option String} {change : Members → Except Raised Members}
    (h : (write H path files baseDigest change).1 ≠ .ok ()) :
    (write H path files baseDigest change).2.config = files.config := by
  rw [write] at h ⊢
  split
  · rfl
  · rename_i hfresh
    rw [if_neg hfresh] at h
    split
    · rfl
    · rename_i document hdocument
      rw [hdocument] at h
      simp only [validated] at h ⊢
      split
      · rfl
      · rename_i settings hsettings
        rw [hsettings] at h
        exact absurd rfl h

theorem saveRegistration_cases (name : String) (values : Members) (baseDigest : Option String) :
    (saveRegistration H path files name values baseDigest).1 ≠ .ok () ∧
        (saveRegistration H path files name values baseDigest).2 = files ∨
      saveRegistration H path files name values baseDigest =
        write H path files baseDigest (saveEdit name values) := by
  simp only [saveRegistration]
  split_ifs
  · exact .inl ⟨nofun, rfl⟩
  · exact .inl ⟨nofun, rfl⟩
  · exact .inl ⟨nofun, rfl⟩
  · exact .inl ⟨nofun, rfl⟩
  · exact .inr rfl

/-- **An accepted edit loads, and touches one key.** -/
theorem Edit.run_eq_ok (h : edit.Accepted H path files) :
    ∃ settings, loadSettings H path (edit.run H path files).2.config = .ok settings ∧
      Edited files.config edit (edit.run H path files).2.config := by
  cases edit with
  | save name values baseDigest =>
      rw [Edit.Accepted, Edit.run] at h
      obtain ⟨hrefused, -⟩ | hwrite := saveRegistration_cases name values baseDigest
      · exact absurd h hrefused
      · rw [hwrite] at h
        obtain ⟨document, settings, hdocument, hconfig, hload⟩ := write_accepted h
        rw [Edit.run, hwrite, hconfig]
        exact ⟨settings, hload, saveEdit_eq_ok hdocument⟩
  | delete name baseDigest =>
      obtain ⟨document, settings, hdocument, hconfig, hload⟩ := write_accepted h
      rw [Edit.run, deleteRegistration, hconfig]
      exact ⟨settings, hload, deleteEdit_eq_ok hdocument⟩

/-- **A refused edit leaves the file as it is.** -/
theorem Edit.run_refused (h : ¬ edit.Accepted H path files) :
    (edit.run H path files).2.config = files.config := by
  cases edit with
  | save name values baseDigest =>
      rw [Edit.Accepted, Edit.run] at h
      obtain ⟨-, hsame⟩ | hwrite := saveRegistration_cases name values baseDigest
      · rw [Edit.run, hsame]
      · rw [hwrite] at h
        rw [Edit.run, hwrite]
        exact write_refused h
  | delete name baseDigest => exact write_refused h

/-! ### What an edit needs -/

/-- A file the application starts with: it loads, and its providers can be built. -/
def Startable (H : Host) (path : String) (file : Option Members) : Prop :=
  ∃ settings built, loadSettings H path file = .ok settings ∧
    buildRegistrations H settings = .ok built

/-- A file the application starts with and that names an enabled registration. -/
def Serving (H : Host) (path : String) (file : Option Members) : Prop :=
  ∃ settings built, loadSettings H path file = .ok settings ∧
    (∃ entry ∈ settings.providers.registrations, entry.2.enabled = true) ∧
    buildRegistrations H settings = .ok built

/-- The registrations an edit starts from: the file's singular block under its kind, or those the
loaded configuration names. -/
def heldBy (file : Option Members) (settings : Settings) :
    List (String × ProviderRegistrationSettings) :=
  match member? "provider" (file.getD []) with
  | some (.obj singular) => [(kindOf singular, settings.provider.asRegistration)]
  | _ => settings.providers.registrations

/-- What is left of the edited registration: its table as written, if any, and what the
environment and `registrations` say of the name. -/
def Edit.leaves (H : Host) (file : Option Members) (edit : Edit) :
    Option ProviderRegistrationSettings :=
  described H edit.name (edit.own file) (member? "registrations" (providersOf file))

/-- **What an edit needs.**  Where the edited registration is left enabled its provider can be
built; where it is not, another registration is enabled already. -/
def Keeps (H : Host) (path : String) (file : Option Members) (edit : Edit) : Prop :=
  ∃ settings, loadSettings H path file = .ok settings ∧
    (∀ r, edit.leaves H file = some r → r.enabled = true → Buildable H edit.name r) ∧
    ((∃ r, edit.leaves H file = some r ∧ r.enabled = true) ∨
      ∃ entry ∈ heldBy file settings, entry.1 ≠ edit.name ∧ entry.2.enabled = true)

theorem Serving.startable {file : Option Members} (h : Serving H path file) :
    Startable H path file :=
  let ⟨settings, built, hload, _, hbuilt⟩ := h
  ⟨settings, built, hload, hbuilt⟩

theorem serving_iff {file : Option Members} {settings : Settings}
    (hload : loadSettings H path file = .ok settings) :
    Serving H path file ↔
      (∃ entry ∈ settings.providers.registrations, entry.2.enabled = true) ∧
        ∀ entry ∈ settings.providers.registrations, entry.2.enabled = true →
          Buildable H entry.1 entry.2 := by
  have hnamed : (∃ entry ∈ settings.providers.registrations, entry.2.enabled = true) →
      settings.providers.registrations ≠ [] := by
    rintro ⟨entry, hentry, -⟩ hnone
    exact List.not_mem_nil (hnone ▸ hentry)
  constructor
  · rintro ⟨settings', built, hload', hsome, hbuilt⟩
    obtain rfl := Except.ok.inj (hload.symm.trans hload')
    have hbuildable := (buildRegistrations_ok_iff H settings).1 ⟨built, hbuilt⟩
    rw [if_neg (hnamed hsome)] at hbuildable
    exact hbuildable
  · intro h
    have hbuild := buildRegistrations_ok_iff H settings
    rw [if_neg (hnamed h.1)] at hbuild
    obtain ⟨built, hbuilt⟩ := hbuild.2 h
    exact ⟨settings, built, hload, h.1, hbuilt⟩

/-! ### One edit -/

section Step

variable {file file' : Option Members} {settings settings' : Settings}

theorem Loaded.none_of_singular (hL : Loaded H file settings)
    (hsingular : singularOf H file ≠ none) {name : String}
    (hname : name ∉ policyKeys ∨ name = "registrations") :
    member? name (providersOf file) = none ∧
      member? name (tableAt "providers" H.environment) = none := by
  have hno := hL.oneForm.resolve_left hsingular
  have hunder : under H file name = none := by
    by_contra hstated
    have htable : isTable (under H file name) = true := by
      obtain hname | rfl := hname
      · obtain ⟨r, hr⟩ := hL.extra name hname hstated
        obtain ⟨block, hblock, -⟩ := registrationOf_eq_some.1 hr
        rw [hblock]
        rfl
      · exact hL.listed hstated
    rw [hno] at htable
    cases htable
  cases henv : member? name (tableAt "providers" H.environment) with
  | none =>
      rw [under, layered_of_none henv] at hunder
      exact ⟨hunder, rfl⟩
  | some value =>
      rw [under, layered_of_some henv] at hunder
      cases hunder

theorem kindOf_eq {singular : Members} {provider : ProviderSettings}
    (h : validateProvider H.toPydantic (.obj singular) = some provider) :
    kindOf singular = provider.kind := by
  simp only [validateProvider, Option.bind_eq_bind, Option.bind_eq_some_iff] at h
  obtain ⟨kind, hkind, _, -, _, -, _, -, _, -, hprovider⟩ := h
  obtain rfl := Option.some.inj hprovider
  rw [field] at hkind
  rw [kindOf]
  cases hstated : member? "kind" singular with
  | none =>
      rw [hstated] at hkind
      exact Option.some.inj hkind
  | some value =>
      rw [hstated] at hkind
      cases value with
      | str s => exact Option.some.inj hkind
      | _ => cases hkind

theorem validateRegistration_eq_some {table : Members} {r : ProviderRegistrationSettings}
    (h : validateRegistration H.toPydantic table = some r) :
    field str "kind" none table = some r.kind ∧
      field H.bool "enabled" (some true) table = some r.enabled ∧
      field (validateFake H.toPydantic) "fake" (some {}) table = some r.fake := by
  obtain ⟨kind, hkind, h⟩ := Option.bind_eq_some_iff.1 h
  obtain ⟨enabled, henabled, h⟩ := Option.bind_eq_some_iff.1 h
  obtain ⟨baseUrl, -, h⟩ := Option.bind_eq_some_iff.1 h
  obtain ⟨timeoutSeconds, -, h⟩ := Option.bind_eq_some_iff.1 h
  obtain ⟨remote, -, h⟩ := Option.bind_eq_some_iff.1 h
  obtain ⟨modelDirectory, -, h⟩ := Option.bind_eq_some_iff.1 h
  obtain ⟨stateDir, -, h⟩ := Option.bind_eq_some_iff.1 h
  obtain ⟨serverPath, -, h⟩ := Option.bind_eq_some_iff.1 h
  obtain ⟨memoryMaxBytes, -, h⟩ := Option.bind_eq_some_iff.1 h
  obtain ⟨memoryHighBytes, -, h⟩ := Option.bind_eq_some_iff.1 h
  obtain ⟨fake, hfake, h⟩ := Option.bind_eq_some_iff.1 h
  obtain ⟨_, -, h⟩ := Option.bind_eq_some_iff.1 h
  obtain ⟨_, -, h⟩ := Option.bind_eq_some_iff.1 h
  obtain rfl := Option.some.inj h
  exact ⟨hkind, henabled, hfake⟩

theorem member?_eq_none_of_forbidExtra {known : List String} {table : Members} {key : String}
    (h : forbidExtra known table = some ()) (hkey : key ∉ known) : member? key table = none := by
  by_contra hstated
  obtain ⟨m, hm, rfl⟩ := List.mem_map.1 (member?_ne_none_iff.1 hstated)
  rw [forbidExtra] at h
  split at h
  · rename_i hall
    exact hkey (by simpa using List.all_eq_true.1 hall m hm)
  · cases h

/-- **A singular block folded into `[providers]` is an enabled registration**, and one that can
be built where the block could. -/
theorem folded_buildable {singular : Members} {provider : ProviderSettings}
    {r : ProviderRegistrationSettings}
    (hprovider : validateProvider H.toPydantic (.obj singular) = some provider)
    (hbuild : Buildable H provider.kind provider.asRegistration)
    (hr : validateRegistration H.toPydantic (popMember "fake" singular) = some r) :
    r.enabled = true ∧ Buildable H (kindOf singular) r := by
  have hkind := kindOf_eq hprovider
  simp only [validateProvider, Option.bind_eq_bind, Option.bind_eq_some_iff] at hprovider
  obtain ⟨_, -, _, -, _, -, _, -, _, hextra, hprovider⟩ := hprovider
  obtain rfl := Option.some.inj hprovider
  obtain ⟨hstated, henabled, hfake⟩ := validateRegistration_eq_some hr
  have hon : r.enabled = true := by
    have hnone : member? "enabled" (popMember "fake" singular) = none := by
      rw [member?_popMember_of_ne (by decide)]
      exact member?_eq_none_of_forbidExtra hextra (by decide)
    rw [field, hnone] at henabled
    exact (Option.some.inj henabled).symm
  have hsmall : r.fake = {} := by
    rw [field, member?_popMember_self] at hfake
    exact (Option.some.inj hfake).symm
  have hsame : kindOf singular = r.kind := by
    rw [field, member?_popMember_of_ne (by decide)] at hstated
    rw [kindOf]
    cases hkey : member? "kind" singular with
    | none => rw [hkey] at hstated; cases hstated
    | some value =>
        rw [hkey] at hstated
        cases value with
        | str s => exact Option.some.inj hstated
        | _ => cases hstated
  refine ⟨hon, ?_⟩
  obtain hollama | ⟨-, hdirectory⟩ | ⟨hfakeKind, -⟩ := hbuild
  · exact .inl (hsame.symm.trans (hkind.trans hollama))
  · exact absurd rfl hdirectory.named
  · exact .inr (.inr ⟨hsame.symm.trans (hkind.trans hfakeKind), .inr (by rw [hsmall]; rfl)⟩)

/-- What the edit leaves standing beside the registration it names. -/
def Beside (H : Host) (file : Option Members) (settings : Settings) (name : String)
    (r : ProviderRegistrationSettings) : Prop :=
  match member? "provider" (file.getD []) with
  | some (.obj singular) => name = kindOf singular ∧
      validateRegistration H.toPydantic (popMember "fake" singular) = some r
  | _ => (name, r) ∈ settings.providers.registrations

/-- **The configuration after an edit, from its parts.** -/
theorem serving_iff_keeps_of_mem {edit : Edit}
    (hload : loadSettings H path file = .ok settings)
    (hload' : loadSettings H path file' = .ok settings')
    (hmem : ∀ entry, entry ∈ settings'.providers.registrations ↔
      entry.1 = edit.name ∧ edit.leaves H file = some entry.2 ∨
        entry.1 ≠ edit.name ∧ Beside H file settings entry.1 entry.2)
    (hbuildable : ∀ name r, Beside H file settings name r → r.enabled = true →
      Buildable H name r)
    (hheld : (∃ name r, name ≠ edit.name ∧ Beside H file settings name r ∧ r.enabled = true) ↔
      ∃ entry ∈ heldBy file settings, entry.1 ≠ edit.name ∧ entry.2.enabled = true) :
    Serving H path file' ↔ Keeps H path file edit := by
  rw [serving_iff hload', Keeps]
  constructor
  · rintro ⟨⟨entry, hentry, hon⟩, hall⟩
    refine ⟨settings, hload, ?_, ?_⟩
    · intro r hr henabled
      exact hall (edit.name, r) ((hmem _).2 (.inl ⟨rfl, hr⟩)) henabled
    · obtain ⟨-, hleaves⟩ | ⟨hne, hbeside⟩ := (hmem entry).1 hentry
      · exact .inl ⟨entry.2, hleaves, hon⟩
      · exact .inr (hheld.1 ⟨entry.1, entry.2, hne, hbeside, hon⟩)
  · rintro ⟨settings₁, hload₁, hleft, hsome⟩
    obtain rfl := Except.ok.inj (hload.symm.trans hload₁)
    refine ⟨?_, ?_⟩
    · obtain ⟨r, hr, hon⟩ | hother := hsome
      · exact ⟨(edit.name, r), (hmem _).2 (.inl ⟨rfl, hr⟩), hon⟩
      · obtain ⟨name, r, hne, hbeside, hon⟩ := hheld.2 hother
        exact ⟨(name, r), (hmem _).2 (.inr ⟨hne, hbeside⟩), hon⟩
    · intro entry hentry hon
      obtain ⟨hedit, hleaves⟩ | ⟨-, hbeside⟩ := (hmem entry).1 hentry
      · exact hedit ▸ hleft entry.2 hleaves hon
      · exact hbuildable entry.1 entry.2 hbeside hon

theorem Startable.buildable (h : Startable H path file)
    (hload : loadSettings H path file = .ok settings)
    {entry : String × ProviderRegistrationSettings}
    (hentry : entry ∈ settings.providers.registrations) (hon : entry.2.enabled = true) :
    Buildable H entry.1 entry.2 := by
  obtain ⟨settings', built, hload', hbuilt⟩ := h
  obtain rfl := Except.ok.inj (hload.symm.trans hload')
  have hbuild := (buildRegistrations_ok_iff H settings).1 ⟨built, hbuilt⟩
  rw [if_neg (List.ne_nil_of_mem hentry)] at hbuild
  exact hbuild.2 entry hentry hon

theorem registrations_ne_policy {edit : Edit} (hname : edit.name ∉ policyKeys) :
    "registrations" ≠ edit.name := by
  rintro heq
  exact hname (heq ▸ by decide)

/-- **An edit of a file that names its registrations.** -/
theorem serving_iff_keeps_named {edit : Edit} (hname : edit.name ∉ policyKeys)
    (hnone : ∀ singular, member? "provider" (file.getD []) ≠ some (.obj singular))
    (hstart : Startable H path file) (hload : loadSettings H path file = .ok settings)
    (hload' : loadSettings H path file' = .ok settings') (hedited : Edited file edit file') :
    Serving H path file' ↔ Keeps H path file edit := by
  have hL := loaded_of_loadSettings hload
  have hL' := loaded_of_loadSettings hload'
  have hfolded : foldedOf file = providersOf file := by
    rw [foldedOf]
    split
    · rename_i singular hsingular
      exact absurd hsingular (hnone singular)
    · rfl
  have hbeside : ∀ name r, Beside H file settings name r ↔
      (name, r) ∈ settings.providers.registrations := by
    intro name r
    rw [Beside]
    split
    · rename_i singular hsingular
      exact absurd hsingular (hnone singular)
    · rfl
  have hheld : heldBy file settings = settings.providers.registrations := by
    rw [heldBy]
    split
    · rename_i singular hsingular
      exact absurd hsingular (hnone singular)
    · rfl
  have hlisted : member? "registrations" (providersOf file') =
      member? "registrations" (providersOf file) := by
    rw [hedited.frame _ (registrations_ne_policy hname), hfolded]
  refine serving_iff_keeps_of_mem hload hload' ?_ ?_ ?_
  · intro entry
    rw [hL'.mem, hlisted, hbeside]
    by_cases hentry : entry.1 = edit.name
    · rw [hentry, hedited.own]
      simp [Edit.leaves]
    · rw [hedited.frame _ hentry, hfolded, ← hL.mem]
      simp [hentry]
  · intro name r hr hon
    exact hstart.buildable hload ((hbeside name r).1 hr) hon
  · simp only [hbeside, hheld, Prod.exists]
    exact exists_congr fun name => exists_congr fun r => by tauto

theorem described_none {name : String} {own : Option Json}
    (hown : name ∉ policyKeys → layered (tableAt "providers" H.environment) name own = none)
    (hlisted : member? "registrations" (tableAt "providers" H.environment) = none) :
    described H name own none = none := by
  simp only [described, layered_none, hlisted, blockOf]
  by_cases hname : name ∈ policyKeys
  · rw [if_pos hname]
    rfl
  · rw [if_neg hname, hown hname]
    rfl

theorem Loaded.registrations_nil (hL : Loaded H file settings)
    (hsingular : singularOf H file ≠ none) : settings.providers.registrations = [] := by
  obtain ⟨hlisted, henv⟩ := hL.none_of_singular hsingular (.inr rfl)
  refine List.eq_nil_iff_forall_not_mem.2 fun entry hentry => ?_
  rw [hL.mem, hlisted, described_none (fun hname => ?_) henv] at hentry
  · cases hentry
  · obtain ⟨hfile, hover⟩ := hL.none_of_singular hsingular (.inl hname)
    rw [hfile, layered_of_none hover]

theorem foldedOf_of_singular {singular : Members}
    (hsingular : member? "provider" (file.getD []) = some (.obj singular)) :
    foldedOf file =
      setMember (kindOf singular) (.obj (popMember "fake" singular)) (providersOf file) := by
  rw [foldedOf, hsingular]

/-- **Where the environment states a singular block too**, no edit of a file with one is accepted
but the deletion of that block, which leaves nothing. -/
theorem serving_iff_keeps_pinned {edit : Edit} {singular : Members}
    (hname : edit.name ∉ policyKeys)
    (hsingular : member? "provider" (file.getD []) = some (.obj singular))
    (henv : member? "provider" H.environment ≠ none)
    (hload : loadSettings H path file = .ok settings)
    (hload' : loadSettings H path file' = .ok settings') (hedited : Edited file edit file') :
    Serving H path file' ↔ Keeps H path file edit := by
  have hL := loaded_of_loadSettings hload
  have hL' := loaded_of_loadSettings hload'
  have hstated : ∀ file : Option Members, singularOf H file ≠ none := by
    intro file
    obtain ⟨value, hvalue⟩ := Option.ne_none_iff_exists'.1 henv
    rw [singularOf, layered_of_some hvalue]
    exact Option.some_ne_none _
  obtain ⟨hlisted, hlistedEnv⟩ := hL.none_of_singular (hstated file) (.inr rfl)
  obtain ⟨hfile, hover⟩ := hL.none_of_singular (hstated file) (.inl hname)
  have hown : edit.own file = none := by
    have hunder := (hL'.oneForm.resolve_left (hstated file')) edit.name
    rw [under, hedited.own, layered_of_none hover] at hunder
    cases edit with
    | save name values baseDigest => cases hunder
    | delete name baseDigest => rfl
  refine iff_of_false ?_ ?_
  · rw [serving_iff hload', hL'.registrations_nil (hstated file')]
    rintro ⟨⟨_, hentry, -⟩, -⟩
    exact List.not_mem_nil hentry
  · rintro ⟨settings₁, hload₁, -, ⟨r, hr, -⟩ | ⟨entry, hentry, hne, -⟩⟩
    · rw [Edit.leaves, hown, hlisted, described_none (fun _ => layered_of_none hover none)
        hlistedEnv] at hr
      cases hr
    · rw [heldBy, hsingular, List.mem_singleton] at hentry
      have hstood := hedited.stood hown
      rw [foldedOf_of_singular hsingular, member?_setMember_of_ne, hfile] at hstood
      · exact hstood rfl
      · rw [hentry] at hne
        exact Ne.symm hne

/-- A singular block that the application starts with is valid, and can be built under a name that is
no key of `[providers]` itself. -/
theorem singular_of_startable {singular : Members}
    (hblock : singularOf H file = some (.obj singular)) (hstart : Startable H path file)
    (hload : loadSettings H path file = .ok settings) :
    validateProvider H.toPydantic (.obj singular) = some settings.provider ∧
      Buildable H settings.provider.kind settings.provider.asRegistration ∧
      kindOf singular ∉ policyKeys := by
  have hL := loaded_of_loadSettings hload
  have hprovider : validateProvider H.toPydantic (.obj singular) = some settings.provider := by
    have h := hL.singular
    rw [hblock] at h
    exact h
  have hbuild : Buildable H settings.provider.kind settings.provider.asRegistration := by
    obtain ⟨settings₁, built, hload₁, hbuilt⟩ := hstart
    obtain rfl := Except.ok.inj (hload.symm.trans hload₁)
    have h := (buildRegistrations_ok_iff H settings).1 ⟨built, hbuilt⟩
    rwa [if_pos (hL.registrations_nil (by simp [hblock]))] at h
  refine ⟨hprovider, hbuild, ?_⟩
  rw [kindOf_eq hprovider]
  obtain h | ⟨h, -⟩ | ⟨h, -⟩ := hbuild <;>
    · rw [show settings.provider.kind = _ from h]
      decide

/-- **An edit of a file with a singular block**, which is folded into a registration. -/
theorem serving_iff_keeps_folded {edit : Edit} {singular : Members}
    (hname : edit.name ∉ policyKeys)
    (hsingular : member? "provider" (file.getD []) = some (.obj singular))
    (henv : member? "provider" H.environment = none) (hstart : Startable H path file)
    (hload : loadSettings H path file = .ok settings)
    (hload' : loadSettings H path file' = .ok settings') (hedited : Edited file edit file') :
    Serving H path file' ↔ Keeps H path file edit := by
  have hL := loaded_of_loadSettings hload
  have hL' := loaded_of_loadSettings hload'
  have hblock : singularOf H file = some (.obj singular) := by
    rw [singularOf, layered_of_none henv, hsingular]
  have hstated : singularOf H file ≠ none := by simp [hblock]
  obtain ⟨hlisted, hlistedEnv⟩ := hL.none_of_singular hstated (.inr rfl)
  obtain ⟨hprovider, hbuild, hkind⟩ := singular_of_startable hblock hstart hload
  obtain ⟨-, hkindEnv⟩ := hL.none_of_singular hstated (.inl hkind)
  have hfolded := foldedOf_of_singular hsingular
  have hlisted' : member? "registrations" (providersOf file') = none := by
    rw [hedited.frame _ (registrations_ne_policy hname), hfolded, member?_setMember_of_ne, hlisted]
    rintro heq
    exact hkind (heq ▸ by decide)
  have hbeside : ∀ name r, Beside H file settings name r ↔ name = kindOf singular ∧
      validateRegistration H.toPydantic (popMember "fake" singular) = some r := by
    intro name r
    rw [Beside, hsingular]
  have hat : kindOf singular ≠ edit.name → member? (kindOf singular) (providersOf file') =
      some (.obj (popMember "fake" singular)) := by
    intro hne
    rw [hedited.frame _ hne, hfolded, member?_setMember_self]
  refine serving_iff_keeps_of_mem hload hload' ?_ ?_ ?_
  · intro entry
    rw [hL'.mem, hlisted', hbeside]
    by_cases hentry : entry.1 = edit.name
    · rw [hentry, hedited.own]
      simp [Edit.leaves, hlisted]
    by_cases hk : entry.1 = kindOf singular
    · rw [hk, hat (hk ▸ hentry)]
      simp [described, layered_none, hlistedEnv, layered_of_none hkindEnv, blockOf, hkind,
        registrationOf, hk ▸ hentry]
    · rw [hedited.frame _ hentry, hfolded, member?_setMember_of_ne hk,
        described_none (fun hentryName => ?_) hlistedEnv]
      · simp [hentry, hk]
      · obtain ⟨hfile, hover⟩ := hL.none_of_singular hstated (.inl hentryName)
        rw [hfile, layered_of_none hover]
  · rintro name r hr -
    obtain ⟨rfl, hvalid⟩ := (hbeside name r).1 hr
    exact (folded_buildable hprovider hbuild hvalid).2
  · simp only [hbeside, heldBy, hsingular, List.mem_singleton]
    constructor
    · rintro ⟨_, r, hne, ⟨rfl, -⟩, -⟩
      exact ⟨_, rfl, hne, rfl⟩
    · rintro ⟨_, rfl, hne, -⟩
      obtain ⟨r, hr⟩ := hL'.extra (kindOf singular) hkind (by
        rw [under, layered_of_none hkindEnv, hat hne]
        exact Option.some_ne_none _)
      rw [under, layered_of_none hkindEnv, hat hne] at hr
      exact ⟨_, r, hne, ⟨rfl, hr⟩, (folded_buildable hprovider hbuild hr).1⟩

/-- **An accepted edit keeps the file serving exactly where it keeps an enabled registration
that can be built.** -/
theorem serving_iff_keeps {edit : Edit} (hname : edit.name ∉ policyKeys)
    (hstart : Startable H path files.config) (haccepted : edit.Accepted H path files) :
    Serving H path (edit.run H path files).2.config ↔ Keeps H path files.config edit := by
  obtain ⟨settings, hload⟩ : ∃ settings, loadSettings H path files.config = .ok settings :=
    hstart.imp fun _ h => h.choose_spec.1
  obtain ⟨settings', hload', hedited⟩ := edit.run_eq_ok haccepted
  cases hsingular : member? "provider" (files.config.getD []) with
  | none =>
      refine serving_iff_keeps_named hname ?_ hstart hload hload' hedited
      simp [hsingular]
  | some value =>
      obtain ⟨singular, rfl⟩ := hedited.block value hsingular
      by_cases henv : member? "provider" H.environment = none
      · exact serving_iff_keeps_folded hname hsingular henv hstart hload hload' hedited
      · exact serving_iff_keeps_pinned hname hsingular henv hload hload' hedited

end Step

/-! ### Runs -/

/-- The configuration files under edits, from a file the application starts with. -/
def editing (H : Host) (path : String) : System ConfigFiles Edit where
  init := {files | Startable H path files.config}
  next files edit files' := files' = (edit.run H path files).2

/-- **A run of edits.**  Every accepted edit leaves a file that loads and every refused one leaves
the file as it is; every accepted edit leaves an enabled registration and providers that can be
built exactly where each of them keeps one, and then the application starts with the file at the
end. -/
theorem edits_serve_iff {history : List (Step ConfigFiles Edit)}
    (hrun : Run (editing H path) history files)
    (hnames : ∀ e ∈ history, e.act.name ∉ policyKeys) :
    (∀ e ∈ history, e.act.Accepted H path e.pre →
        ∃ settings, loadSettings H path e.post.config = .ok settings) ∧
      (∀ e ∈ history, ¬ e.act.Accepted H path e.pre → e.post.config = e.pre.config) ∧
      ((∀ e ∈ history, e.act.Accepted H path e.pre → Serving H path e.post.config) ↔
        ∀ e ∈ history, e.act.Accepted H path e.pre → Keeps H path e.pre.config e.act) ∧
      ((∀ e ∈ history, e.act.Accepted H path e.pre → Keeps H path e.pre.config e.act) →
        Startable H path files.config) := by
  have hpost : ∀ e ∈ history, e.post = (e.act.run H path e.pre).2 :=
    fun e he => hrun.next_of_mem he
  refine ⟨?_, ?_, ?_⟩
  · intro e he haccepted
    obtain ⟨settings, hload, -⟩ := e.act.run_eq_ok haccepted
    exact ⟨settings, hpost e he ▸ hload⟩
  · intro e he hrefused
    rw [hpost e he]
    exact e.act.run_refused hrefused
  · clear hpost
    induction hrun with
    | start hstart => exact ⟨by simp, fun _ => hstart⟩
    | @step history files files' edit hpast hnext ih =>
        obtain ⟨hname, hnames⟩ := List.forall_mem_cons.1 hnames
        obtain ⟨hiff, hstart⟩ := ih hnames
        obtain rfl : files' = (edit.run H path files).2 := hnext
        have hlast : (∀ e ∈ history, e.act.Accepted H path e.pre →
              Keeps H path e.pre.config e.act) → edit.Accepted H path files →
            (Serving H path (edit.run H path files).2.config ↔ Keeps H path files.config edit) :=
          fun hkept haccepted => serving_iff_keeps hname (hstart hkept) haccepted
        simp only [List.forall_mem_cons]
        refine ⟨⟨?_, ?_⟩, ?_⟩
        · rintro ⟨hserving, hpastServing⟩
          have hkept := hiff.1 hpastServing
          exact ⟨fun haccepted => (hlast hkept haccepted).1 (hserving haccepted), hkept⟩
        · rintro ⟨hkeeps, hkept⟩
          exact ⟨fun haccepted => (hlast hkept haccepted).2 (hkeeps haccepted), hiff.2 hkept⟩
        · rintro ⟨hkeeps, hkept⟩
          by_cases haccepted : edit.Accepted H path files
          · exact ((hlast hkept haccepted).2 (hkeeps haccepted)).startable
          · rw [edit.run_refused haccepted]
            exact hstart hkept

/-! ### Two registrations -/

/-- A host with an empty environment. -/
def bareHost : Host where
  toWording := integersOnly
  bool
    | .bool b => some b
    | _ => none
  int
    | .int n => some n
    | _ => none
  float _ := none
  firstError _ := ([], "")
  errors _ := []
  environment := []
  distinct := List.nodup_nil
  sectionDistinct := List.nodup_nil
  sections _ := .ok ()
  dataDir := "/var/lib/loadcoach"
  expanduser := .ok
  mkdir _ := .ok ()
  digest _ := ""
  isAlnum := Char.isAlphanum

/-- A file with a registration in use and a spare one. -/
def twoProviders (main spare : Bool) : Members :=
  [("providers", .obj
    [("main", .obj [("kind", .str "ollama"), ("enabled", .bool main)]),
     ("spare", .obj [("kind", .str "ollama"), ("enabled", .bool spare)])])]

/-- The settings of such a file. -/
def twoSettings (main spare : Bool) : Settings where
  provider := {}
  providers :=
    { registrations := [("main", { kind := "ollama", enabled := main }),
        ("spare", { kind := "ollama", enabled := spare })] }

theorem loadSettings_two (main spare : Bool) :
    loadSettings bareHost "config.toml" (some (twoProviders main spare)) =
      .ok (twoSettings main spare) := by
  cases main <;> cases spare <;> rfl

theorem startable_two (main spare : Bool) (h : (main || spare) = true) :
    Startable bareHost "config.toml" (some (twoProviders main spare)) := by
  have hbuild := (buildRegistrations_ok_iff bareHost (twoSettings main spare)).2 (by
    rw [if_neg (by simp [twoSettings])]
    refine ⟨by simpa [twoSettings] using h, ?_⟩
    simp [twoSettings, Buildable])
  obtain ⟨built, hbuilt⟩ := hbuild
  exact ⟨_, built, loadSettings_two main spare, hbuilt⟩

/-- The spare registration is enabled and then the one in use disabled: both edits keep an enabled
registration, and the application starts with the file they leave. -/
theorem swap_starts :
    ∃ history, Run (editing bareHost "config.toml") history
        { config := some (twoProviders false true), backup := some (twoProviders true true) } ∧
      history.map (fun e => e.act.name) = ["main", "spare"] ∧
      Startable bareHost "config.toml" (some (twoProviders false true)) := by
  have hstart : Run (editing bareHost "config.toml") []
      { config := some (twoProviders true false) } := .start (startable_two true false rfl)
  have hspare : Run (editing bareHost "config.toml") _
      { config := some (twoProviders true true), backup := some (twoProviders true false) } :=
    hstart.step (a := Edit.save "spare" [("enabled", .bool true)] none) rfl
  have hrun : Run (editing bareHost "config.toml") _
      { config := some (twoProviders false true), backup := some (twoProviders true true) } :=
    hspare.step (a := Edit.save "main" [("enabled", .bool false)] none) rfl
  refine ⟨_, hrun, rfl, (edits_serve_iff hrun ?_).2.2.2 ?_⟩
  · simp [Edit.name, policyKeys]
  · simp only [List.forall_mem_cons]
    refine ⟨fun _ => ⟨_, loadSettings_two true true, ?_, .inr ?_⟩, fun _ =>
      ⟨_, loadSettings_two true false, ?_, .inl ⟨_, rfl, rfl⟩⟩, by simp⟩
    · rintro r hr hon
      obtain rfl := Option.some.inj hr
      cases hon
    · exact ⟨("spare", { kind := "ollama", enabled := true }), by simp [heldBy, twoSettings,
        twoProviders, member?], by decide, rfl⟩
    · rintro r hr -
      obtain rfl := Option.some.inj hr
      exact .inl rfl

/-- The registration in use is deleted while the spare one is disabled: the edit is accepted, and
the application does not start with the file it leaves. -/
theorem delete_unstarts :
    Startable bareHost "config.toml" (some (twoProviders true false)) ∧
      (Edit.delete "main" none).Accepted bareHost "config.toml"
        { config := some (twoProviders true false) } ∧
      ¬ Startable bareHost "config.toml" ((Edit.delete "main" none).run bareHost "config.toml"
        { config := some (twoProviders true false) }).2.config := by
  refine ⟨startable_two true false rfl, rfl, ?_⟩
  rintro ⟨settings, built, hload, hbuilt⟩
  have hloaded : loadSettings bareHost "config.toml"
      ((Edit.delete "main" none).run bareHost "config.toml"
        { config := some (twoProviders true false) }).2.config =
      .ok { provider := {}, providers :=
        { registrations := [("spare", { kind := "ollama", enabled := false })] } } := rfl
  obtain rfl := Except.ok.inj (hloaded.symm.trans hload)
  cases hbuilt

end LoadCoach.Configuration
