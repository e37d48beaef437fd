import LoadCoach.Foundations.Exceptions
import LoadCoach.Foundations.Sorting
import LoadCoach.Foundations.Table
import LoadCoach.Values

/-! # Assembling streamed tool calls

`services/execution.py`: a provider emits one call in several fragments, and `assemble_tool_calls`
groups them by their `call_index`.  The grouping acts index by index (`lookup_grouped`), so that
fragments of different calls may come in any order.

The arguments of a call are its fragments put together and read as JSON, or the text where that is
no JSON.  A text that nests deeper than the interpreter recurses is neither: the reader raises what
nothing catches (`assembles_iff`). -/

namespace LoadCoach

open Foundations

/-! ### Fragments -/

/-- One fragment of a streamed tool call; what a delta does not carry is `none`. -/
structure ToolCallFragment where
  callIndex : Option ℤ := none
  id : Option String := none
  name : Option String := none
  argumentsFragment : Option String := none
deriving DecidableEq

/-- The call a fragment belongs to. -/
def ToolCallFragment.index (fragment : ToolCallFragment) : ℤ := fragment.callIndex.getD 0

/-- A text that is there and not empty. -/
def present (s : Option String) : Option String := s.filter (· ≠ "")

/-- A call while its fragments arrive. -/
structure GroupedCall where
  callIndex : ℤ
  id : Option String := none
  name : Option String := none
  argumentsText : String := ""
deriving DecidableEq

/-- One round of the loop: the first id and the first name are kept, the arguments are put
together. -/
def GroupedCall.extend (call : GroupedCall) (fragment : ToolCallFragment) : GroupedCall where
  callIndex := call.callIndex
  id := if (present fragment.id).isSome ∧ (present call.id).isNone then fragment.id else call.id
  name :=
    if (present fragment.name).isSome ∧ (present call.name).isNone then fragment.name else call.name
  argumentsText := call.argumentsText ++ fragment.argumentsFragment.getD ""

/-- The calls by index, after every fragment. -/
def groupedCalls (fragments : List ToolCallFragment) : Table ℤ GroupedCall :=
  fragments.foldl (fun grouped fragment =>
    grouped.upsert fragment.index fun old =>
      (old.getD { callIndex := fragment.index }).extend fragment) ∅

/-! ### Assembling -/

/-- What `json.loads` makes of a text. -/
inductive Loaded where
  | value (v : Json)
  | valueError
  /-- The text nests deeper than the interpreter recurses. -/
  | recursionError

/-- A whole call. -/
structure AssembledCall where
  callIndex : ℤ
  id : Option String
  name : Option String
  arguments : Json

variable (loads : String → Loaded)

/-- `_parsed_arguments`. -/
def parsedArguments (text : String) : Except Raised Json :=
  if text = "" then .ok (.obj [])
  else
    match loads text with
    | .value v => .ok v
    | .valueError => .ok (.str text)
    | .recursionError => .error .unexpected

/-- The round of the second loop. -/
def GroupedCall.assembled (call : GroupedCall) : Except Raised AssembledCall :=
  (parsedArguments loads call.argumentsText).map fun arguments =>
    { callIndex := call.callIndex, id := call.id, name := call.name, arguments }

/-- `assemble_tool_calls`. -/
def assembleToolCalls (fragments : List ToolCallFragment) : Except Raised (List AssembledCall) :=
  let grouped := groupedCalls fragments
  (sortBy (fun index => index) grouped.keys).mapM fun index =>
    match grouped.lookup index with
    | some call => call.assembled loads
    | none => .error (.keyError "")

/-! ### What a call is made of -/

/-- The fragments of one call, in the order they arrived. -/
def fragmentsOf (index : ℤ) (fragments : List ToolCallFragment) : List ToolCallFragment :=
  fragments.filter fun fragment => decide (fragment.index = index)

/-- The argument fragments of one call put together. -/
def argumentsOf (index : ℤ) (fragments : List ToolCallFragment) : String :=
  String.join ((fragmentsOf index fragments).map fun fragment => fragment.argumentsFragment.getD "")

/-- The id of one call: the first that a fragment of it carries. -/
def idOf (index : ℤ) (fragments : List ToolCallFragment) : Option String :=
  ((fragmentsOf index fragments).filterMap fun fragment => present fragment.id).head?

/-- The name of one call: the first that a fragment of it carries. -/
def nameOf (index : ℤ) (fragments : List ToolCallFragment) : Option String :=
  ((fragmentsOf index fragments).filterMap fun fragment => present fragment.name).head?

/-- The arguments as a value where they are JSON, and as the text where they are not. -/
def argumentsValue (text : String) : Json :=
  if text = "" then .obj []
  else
    match loads text with
    | .value v => v
    | _ => .str text

/-! ### The grouping -/

theorem present_present (s : Option String) : present (present s) = present s := by
  cases s with
  | none => rfl
  | some s => by_cases hs : s = "" <;> simp [present, hs]

theorem present_extend (old new : Option String) (hold : present old = old) :
    (if (present new).isSome ∧ (present old).isNone then new else old) = old.or (present new) := by
  rw [hold]
  cases old with
  | some s => simp
  | none =>
      cases new with
      | none => rfl
      | some s => by_cases hs : s = "" <;> simp [present, hs, Option.filter]

theorem foldl_extend (fragments : List ToolCallFragment) (call : GroupedCall)
    (hid : present call.id = call.id) (hname : present call.name = call.name) :
    fragments.foldl GroupedCall.extend call =
      { callIndex := call.callIndex
        id := call.id.or (fragments.filterMap fun fragment => present fragment.id).head?
        name := call.name.or (fragments.filterMap fun fragment => present fragment.name).head?
        argumentsText := call.argumentsText ++
          String.join (fragments.map fun fragment => fragment.argumentsFragment.getD "") } := by
  induction fragments generalizing call with
  | nil => simp
  | cons fragment fragments ih =>
      have hkept : ∀ old new : Option String, present old = old →
          present (old.or (present new)) = old.or (present new) := by
        intro old new hold
        cases old with
        | some s => exact hold
        | none => exact present_present new
      have hfirst : ∀ (old : Option String) (read : ToolCallFragment → Option String),
          (old.or (present (read fragment))).or
              (fragments.filterMap fun f => present (read f)).head? =
            old.or ((fragment :: fragments).filterMap fun f => present (read f)).head? := by
        intro old read
        rw [Option.or_assoc]
        cases hread : present (read fragment) <;> simp [hread]
      rw [List.foldl_cons, ih]
      · simp only [GroupedCall.extend, present_extend _ _ hid, present_extend _ _ hname,
          hfirst, List.map_cons, String.join_cons, String.append_assoc]
      · simp only [GroupedCall.extend, present_extend _ _ hid]
        exact hkept _ _ hid
      · simp only [GroupedCall.extend, present_extend _ _ hname]
        exact hkept _ _ hname

/-- **The grouping acts index by index.** -/
theorem lookup_grouped (fragments : List ToolCallFragment) (index : ℤ) :
    (groupedCalls fragments).lookup index =
      if fragmentsOf index fragments = [] then none
      else some { callIndex := index, id := idOf index fragments, name := nameOf index fragments,
                  argumentsText := argumentsOf index fragments } := by
  have hfold : ∀ (l : List ToolCallFragment) (call : GroupedCall),
      l.foldl (fun old fragment =>
        some ((old.getD { callIndex := fragment.index }).extend fragment)) (some call) =
          some (l.foldl GroupedCall.extend call) := by
    intro l
    induction l with
    | nil => exact fun _ => rfl
    | cons fragment l ih => exact fun call => ih _
  rw [groupedCalls, Table.lookup_foldl_upsert_eq, AList.lookup_empty]
  change (fragmentsOf index fragments).foldl _ none = _
  cases hfragments : fragmentsOf index fragments with
  | nil => rfl
  | cons fragment rest =>
      have hindex : fragment.index = index := by
        have hmem : fragment ∈ fragmentsOf index fragments := by simp [hfragments]
        simpa using (List.mem_filter.1 hmem).2
      rw [List.foldl_cons, Option.getD_none, hfold, if_neg (List.cons_ne_nil _ _), hindex,
        ← List.foldl_cons, foldl_extend _ _ rfl rfl, idOf, nameOf, argumentsOf, hfragments]
      simp

theorem mem_groupedCalls {fragments : List ToolCallFragment} {index : ℤ} :
    index ∈ groupedCalls fragments ↔ ∃ fragment ∈ fragments, fragment.index = index := by
  rw [groupedCalls, Table.mem_foldl_upsert, List.mem_map]
  simp

theorem keys_grouped {fragments fragments' : List ToolCallFragment}
    (hsame : ∀ index, fragmentsOf index fragments' = fragmentsOf index fragments) :
    sortBy (fun index => index) (groupedCalls fragments').keys =
      sortBy (fun index => index) (groupedCalls fragments).keys := by
  have hmem : ∀ {fragments : List ToolCallFragment} {index : ℤ},
      index ∈ (groupedCalls fragments).keys ↔ fragmentsOf index fragments ≠ [] := by
    intro fragments index
    rw [← AList.mem_keys, mem_groupedCalls, fragmentsOf, Ne, List.filter_eq_nil_iff]
    simp
  refine sortBy_perm (by simpa using (groupedCalls fragments).keys_nodup) ?_
  rw [List.perm_ext_iff_of_nodup (groupedCalls fragments').keys_nodup
    (groupedCalls fragments).keys_nodup]
  intro index
  rw [hmem, hmem, hsame]

/-! ### Whole calls -/

/-- The calls in the order of their indices, each with its id, its name and its arguments. -/
structure Assembled (fragments : List ToolCallFragment) (calls : List AssembledCall) : Prop where
  ordered : (calls.map AssembledCall.callIndex).Pairwise (· < ·)
  complete : ∀ index, index ∈ calls.map AssembledCall.callIndex ↔
    ∃ fragment ∈ fragments, fragment.index = index
  whole : ∀ call ∈ calls, call.id = idOf call.callIndex fragments ∧
    call.name = nameOf call.callIndex fragments ∧
    call.arguments = argumentsValue loads (argumentsOf call.callIndex fragments)

/-- A text the reader can go through. -/
def Shallow (text : String) : Prop := text ≠ "" → loads text ≠ .recursionError

variable {loads}

theorem parsedArguments_eq_ok {text : String} (h : Shallow loads text) :
    parsedArguments loads text = .ok (argumentsValue loads text) := by
  rw [parsedArguments, argumentsValue]
  split
  · rfl
  · rename_i hne
    cases hloads : loads text with
    | value v => rfl
    | valueError => rfl
    | recursionError => exact absurd hloads (h hne)

theorem shallow_of_parsedArguments {text : String} {arguments : Json}
    (h : parsedArguments loads text = .ok arguments) : Shallow loads text := by
  intro hne hloads
  rw [parsedArguments, if_neg hne, hloads] at h
  cases h

theorem assembleToolCalls_eq (fragments : List ToolCallFragment) :
    assembleToolCalls loads fragments =
      (sortBy (fun index => index) (groupedCalls fragments).keys).mapM fun index =>
        (parsedArguments loads (argumentsOf index fragments)).map fun arguments =>
          { callIndex := index, id := idOf index fragments, name := nameOf index fragments,
            arguments } := by
  have hround : ∀ index ∈ sortBy (fun index => index) (groupedCalls fragments).keys,
      (match (groupedCalls fragments).lookup index with
        | some call => call.assembled loads
        | none => .error (.keyError "")) =
      (parsedArguments loads (argumentsOf index fragments)).map fun arguments =>
        { callIndex := index, id := idOf index fragments, name := nameOf index fragments,
          arguments } := by
    intro index hindex
    have hmem : index ∈ groupedCalls fragments := (List.mem_insertionSort _).1 hindex
    have hfound := AList.lookup_isSome.2 hmem
    rw [lookup_grouped] at hfound ⊢
    split at hfound
    · cases hfound
    · rename_i hne
      rw [if_neg hne]
      rfl
  rw [assembleToolCalls]
  exact mapM_congr hround

theorem assembled_of_shallow {fragments : List ToolCallFragment}
    (hshallow : ∀ fragment ∈ fragments, Shallow loads (argumentsOf fragment.index fragments)) :
    ∃ calls, assembleToolCalls loads fragments = .ok calls ∧ Assembled loads fragments calls := by
  have hmem : ∀ index, index ∈ sortBy (fun index => index) (groupedCalls fragments).keys ↔
      ∃ fragment ∈ fragments, fragment.index = index := fun index =>
    (List.mem_insertionSort _).trans mem_groupedCalls
  refine ⟨(sortBy (fun index => index) (groupedCalls fragments).keys).map fun index =>
    { callIndex := index, id := idOf index fragments, name := nameOf index fragments,
      arguments := argumentsValue loads (argumentsOf index fragments) }, ?_, ?_, ?_, ?_⟩
  · rw [assembleToolCalls_eq]
    refine mapM_eq_ok_map fun index hindex => ?_
    obtain ⟨fragment, hfragment, rfl⟩ := (hmem index).1 hindex
    rw [parsedArguments_eq_ok (hshallow fragment hfragment)]
    rfl
  · rw [List.map_map]
    change ((sortBy (fun index => index) (groupedCalls fragments).keys).map id).Pairwise (· < ·)
    rw [List.map_id]
    have hsorted := List.pairwise_insertionSort (· ≤ ·) (groupedCalls fragments).keys
    have hnodup := (List.perm_insertionSort (· ≤ ·) (groupedCalls fragments).keys).nodup_iff.2
      (groupedCalls fragments).keys_nodup
    exact hsorted.imp₂ (fun _ _ => lt_of_le_of_ne) hnodup
  · intro index
    rw [List.map_map]
    change index ∈ (sortBy (fun index => index) (groupedCalls fragments).keys).map id ↔ _
    rw [List.map_id, hmem]
  · intro call hcall
    obtain ⟨index, -, rfl⟩ := List.mem_map.1 hcall
    exact ⟨rfl, rfl, rfl⟩

/-- **Tool calls assemble** exactly where no call's arguments nest too deeply to be read: then each
index has its call, with the first id and the first name it was sent, and its argument fragments put
together in order; and fragments of other calls may come in between. -/
theorem assembles_iff (loads : String → Loaded) (fragments : List ToolCallFragment) :
    (∃ calls, assembleToolCalls loads fragments = .ok calls ∧
      Assembled loads fragments calls ∧
      ∀ fragments', (∀ index, fragmentsOf index fragments' = fragmentsOf index fragments) →
        assembleToolCalls loads fragments' = .ok calls) ↔
      ∀ fragment ∈ fragments, Shallow loads (argumentsOf fragment.index fragments) := by
  constructor
  · rintro ⟨calls, hcalls, -, -⟩ fragment hfragment
    rw [assembleToolCalls_eq] at hcalls
    have hround := exists_mapM_ok_iff.1 ⟨calls, hcalls⟩ fragment.index
      ((List.mem_insertionSort _).2 (mem_groupedCalls.2 ⟨fragment, hfragment, rfl⟩))
    obtain ⟨call, hcall⟩ := hround
    obtain ⟨arguments, harguments, -⟩ := map_eq_ok.1 hcall
    exact shallow_of_parsedArguments harguments
  · intro hshallow
    obtain ⟨calls, hcalls, hwhole⟩ := assembled_of_shallow hshallow
    refine ⟨calls, hcalls, hwhole, fun fragments' hsame => ?_⟩
    rw [← hcalls, assembleToolCalls_eq, assembleToolCalls_eq, keys_grouped hsame]
    refine mapM_congr fun index _ => ?_
    rw [argumentsOf, argumentsOf, idOf, idOf, nameOf, nameOf, hsame]

/-- A text of opening brackets. -/
def brackets (depth : ℕ) : String := String.ofList (List.replicate depth '[')

/-- A reader that gives up on so many opening brackets, and finds JSON nowhere. -/
def bracketReader (depth : ℕ) (text : String) : Loaded :=
  if depth ≤ (text.toList.takeWhile (· == '[')).length then .recursionError else .valueError

/-- A call whose arguments are opening brackets. -/
def bracketCall (depth : ℕ) : ToolCallFragment where
  callIndex := some 0
  id := some "call_1"
  name := some "run_command"
  argumentsFragment := some (brackets depth)

theorem not_shallow_brackets {depth : ℕ} (hdepth : depth ≠ 0) :
    ¬ Shallow (bracketReader depth) (argumentsOf 0 [bracketCall depth]) := by
  have htext : argumentsOf 0 [bracketCall depth] = brackets depth := by
    simp [argumentsOf, fragmentsOf, ToolCallFragment.index, bracketCall]
  have hne : brackets depth ≠ "" := by
    intro hempty
    have hlength := congrArg (fun s => s.toList.length) hempty
    simp [brackets] at hlength
    exact hdepth hlength
  have hdeep : bracketReader depth (brackets depth) = .recursionError := by
    simp [bracketReader, brackets, List.takeWhile_replicate_eq_filter]
  rw [htext]
  exact fun hshallow => hshallow hne hdeep

/-- Arguments of a hundred thousand opening brackets are no JSON, and instead of being kept as text
they raise what nothing catches. -/
theorem brackets_not_assembled :
    ¬ ∃ calls, assembleToolCalls (bracketReader 100000) [bracketCall 100000] = .ok calls := by
  rintro ⟨calls, hcalls⟩
  rw [assembleToolCalls_eq] at hcalls
  obtain ⟨call, hcall⟩ := exists_mapM_ok_iff.1 ⟨calls, hcalls⟩ 0
    ((List.mem_insertionSort _).2 (mem_groupedCalls.2 ⟨_, List.mem_singleton_self _, rfl⟩))
  obtain ⟨arguments, harguments, -⟩ := map_eq_ok.1 hcall
  exact not_shallow_brackets (by decide) (shallow_of_parsedArguments harguments)

end LoadCoach
