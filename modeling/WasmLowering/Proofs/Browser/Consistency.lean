import Mathlib.Data.List.DropRight
import Mathlib.Data.List.Infix
import Mathlib.Data.List.Induction
import Mathlib.Data.List.Range
import WasmLowering.Browser

/-! The parts of a browser agree with each other.

The filter determines which functions are visible, and the selection which of them
is in the code pane. An event leaves all of these alone, filters anew, or moves the
selection among what is visible, so they agree after any number of events. -/

namespace WasmLowering

/-! ## Texts in texts -/

theorem Text.occursIn_iff {needle text : List Char} :
    Text.occursIn needle text = true ↔ needle <:+: text := by
  induction text with
  | nil => simp [Text.occursIn]
  | cons char rest induction =>
      rw [Text.occursIn, Bool.or_eq_true, List.isPrefixOf_iff_prefix, induction,
        List.infix_cons_iff]

/-- Nothing is left of a text between its blanks if there is nothing but blanks. -/
theorem Text.trim_eq_empty_iff {text : String} :
    Text.trim text = "" ↔ ∀ char ∈ text.toList, Text.isSpace char = true := by
  have isTrimmed : (Text.trim text).toList =
      List.rdropWhile Text.isSpace (text.toList.dropWhile Text.isSpace) := by
    rw [Text.trim, String.toList_ofList, List.rdropWhile]
  rw [← String.toList_inj, isTrimmed, String.toList_empty, List.rdropWhile_eq_nil_iff]
  constructor
  · intro blank
    by_contra other
    have rest : text.toList.dropWhile Text.isSpace ≠ [] :=
      fun empty => other (List.dropWhile_eq_nil_iff.mp empty)
    -- What is left behind the first blanks does not begin with one.
    have stops := List.head_dropWhile_not Text.isSpace rest
    rw [blank _ (List.head_mem rest)] at stops
    cases stops
  · intro blank char member
    exact blank char ((List.dropWhile_suffix _).mem member)

theorem Text.lower_eq_empty_iff {text : String} : Text.lower text = "" ↔ text = "" := by
  rw [← String.toList_inj, ← String.toList_inj, Text.lower, String.toList_ofList,
    String.toList_empty, List.map_eq_nil_iff]

namespace Browser

def HoldsText (text other : String) : Prop :=
  (Text.lower other).toList <:+: (Text.lower text).toList

/-- What a filter leaves: the functions whose name or symbol holds the filter without
the blanks around it. A blank filter leaves all functions. -/
def Matches (filter : String) (function : FunctionOutput) : Prop :=
  (∀ char ∈ filter.toList, Text.isSpace char = true) ∨
    HoldsText function.name (Text.trim filter) ∨ HoldsText function.symbol (Text.trim filter)

theorem passes_query_iff {browser : Browser} {function : FunctionOutput} :
    passes browser.query function = true ↔ Matches browser.filter function := by
  simp [passes, query, Matches, HoldsText, Text.occursIn_iff, Text.lower_eq_empty_iff,
    Text.trim_eq_empty_iff, or_assoc]

/-- The parts of a browser of functions agree with each other. -/
structure Consistent (functions : List FunctionOutput) (browser : Browser) : Prop where
  sameFunctions : browser.functions = functions
  increasing : browser.visible.Pairwise (· < ·)
  mem_visible : ∀ position, position ∈ browser.visible ↔
    ∃ function, functions[position]? = some function ∧ Matches browser.filter function
  selected : browser.selected = 0 ∨ browser.selected < browser.visible.length
  current : browser.current.isSome = true ↔ browser.visible ≠ []
  shown : browser.shown =
    match browser.current with
    | some function => function.text
    | none => "no matching functions"

variable {functions : List FunctionOutput} {browser : Browser}

/-! ## What events do -/

inductive Changes (browser : Browser) : Browser → Prop
  | leaves (isFiltering : Bool) (height codeWidth codeHeight : Int) :
      Changes browser { browser with isFiltering, height, codeWidth, codeHeight }
  | filters (filter : String) (isFiltering : Bool) :
      Changes browser { browser with filter, isFiltering }.applyFilter
  | moves (distance : Int) : Changes browser (browser.move distance)

theorem Changes.nothing (browser : Browser) : Changes browser browser :=
  .leaves browser.isFiltering browser.height browser.codeWidth browser.codeHeight

theorem selectKey_changes (browser : Browser) (key : Key) :
    Changes browser (browser.selectKey key).1 := by
  unfold selectKey
  split
  · exact .nothing browser
  · exact .nothing browser
  · exact .leaves true _ _ _
  · exact .filters "" _
  · exact .moves _
  · exact .moves _
  · exact .moves _
  · exact .moves _
  · exact .moves _
  · exact .moves _
  · exact .moves _
  · exact .moves _
  · exact .nothing browser

theorem editKey_changes (browser : Browser) (key : Key) (edited : String) :
    Changes browser (browser.editKey key edited).1 := by
  unfold editKey
  split
  · exact .nothing browser
  · exact .filters "" false
  · exact .filters _ false
  · exact .filters edited _

theorem updateWith_changes (browser : Browser) (event : Event) (edited : String) :
    Changes browser (browser.updateWith event edited).1 := by
  cases event with
  | window width height => exact .leaves _ _ _ _
  | key key =>
      simp only [updateWith]
      split
      · exact editKey_changes browser key edited
      · exact selectKey_changes browser key

/-! ## What is kept -/

/-- With a selection among visible positions of functions, something is selected
unless nothing is visible. -/
theorem current_isSome_iff
    (selected : browser.selected = 0 ∨ browser.selected < browser.visible.length)
    (inside : ∀ position ∈ browser.visible, position < browser.functions.length) :
    browser.current.isSome = true ↔ browser.visible ≠ [] := by
  constructor
  · intro isSome empty
    simp [Browser.current, empty] at isSome
  · intro given
    have positive : 0 < browser.visible.length := List.length_pos_iff.mpr given
    have below : browser.selected < browser.visible.length := by omega
    have known := inside _ (List.getElem_mem below)
    simp [Browser.current, below, known]

theorem applyFilter_consistent (same : browser.functions = functions) :
    Consistent functions browser.applyFilter := by
  subst same
  have increasing : browser.applyFilter.visible.Pairwise (· < ·) := by
    have positions : (browser.functions.zipIdx.map (·.2)).Pairwise (· < ·) := by
      rw [List.zipIdx_map_snd]
      exact List.pairwise_lt_range'
    exact positions.sublist (List.filter_sublist.map _)
  have visible : ∀ position, position ∈ browser.applyFilter.visible ↔
      ∃ function, browser.functions[position]? = some function ∧
        Matches browser.filter function := by
    intro position
    simp [applyFilter, refresh, List.mem_zipIdx_iff_getElem?, passes_query_iff]
  refine ⟨rfl, increasing, visible, .inl rfl, ?_, rfl⟩
  apply current_isSome_iff (.inl rfl)
  intro position member
  rcases (visible position).mp member with ⟨function, isFunction, _⟩
  exact (List.getElem?_eq_some_iff.mp isFunction).1

namespace Consistent

variable (consistent : Consistent functions browser)
include consistent

theorem visible_lt : ∀ position ∈ browser.visible, position < browser.functions.length := by
  intro position member
  rcases (consistent.mem_visible position).mp member with ⟨function, isFunction, _⟩
  rw [← consistent.sameFunctions] at isFunction
  exact (List.getElem?_eq_some_iff.mp isFunction).1

theorem move (distance : Int) : Consistent functions (browser.move distance) := by
  unfold Browser.move
  split
  · exact consistent
  · next given =>
      have positive : 0 < browser.visible.length := by
        simpa [List.length_pos_iff] using given
      have selected : (min (max (browser.selected + distance) 0)
          ((browser.visible.length : Int) - 1)).toNat < browser.visible.length := by
        omega
      exact ⟨consistent.sameFunctions, consistent.increasing, consistent.mem_visible,
        .inr selected, current_isSome_iff (.inr selected) consistent.visible_lt, rfl⟩

theorem changes {after : Browser} (changes : Changes browser after) :
    Consistent functions after := by
  cases changes with
  | leaves isFiltering height codeWidth codeHeight =>
      exact ⟨consistent.sameFunctions, consistent.increasing, consistent.mem_visible,
        consistent.selected, consistent.current, consistent.shown⟩
  | filters filter isFiltering => exact applyFilter_consistent consistent.sameFunctions
  | moves distance => exact consistent.move distance

end Consistent

/-! ## Runs -/

def afterEvents (browser : Browser) (events : List (Event × String)) : Browser :=
  events.foldl (fun browser (event, edited) => (browser.updateWith event edited).1) browser

/-- After any number of events the parts of a browser agree, whatever the box of the
filter makes of keys. -/
theorem browsing_consistent (functions : List FunctionOutput) (events : List (Event × String)) :
    Consistent functions ((ofFunctions functions).afterEvents events) := by
  have start : Consistent functions (ofFunctions functions) := applyFilter_consistent rfl
  exact List.foldlRecOn events _ start fun browser consistent (event, edited) _ =>
    consistent.changes (updateWith_changes browser event edited)

end Browser

end WasmLowering
