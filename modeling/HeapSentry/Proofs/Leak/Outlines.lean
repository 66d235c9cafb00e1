import HeapSentry.Leak.Trace
import Mathlib.Data.List.Infix

/-!
# What outlines tell

The outline of a trace writes each class with a mark behind it that shows the kind of the reference
and ends the line.  Nothing keeps a class name from holding such a mark itself, and then the outline
can be read in several ways.  Among traces without marks in their class names each outline belongs
to one chain.
-/

namespace HeapSentry.Leak

open Heap

/-! ## Rows of classes -/

/-- What stands behind the class of a reference. -/
def mark (kind : ReferenceKind) : List Char := '#' :: (kind.name.toList ++ ['\n'])

/-- The classes of a chain with their marks, and the class at its end. -/
def rows : List (List Char × ReferenceKind) → List Char → List Char
  | [], last => last
  | (name, kind) :: steps, last => name ++ (mark kind ++ rows steps last)

def HoldsMark (name : List Char) : Prop := ∃ kind, mark kind <:+: name

def AreUnmarked (steps : List (List Char × ReferenceKind)) (last : List Char) : Prop :=
  (∀ step ∈ steps, ¬ HoldsMark step.1) ∧ ¬ HoldsMark last

theorem mark_inj {kind kind' : ReferenceKind} {rest rest' : List Char}
    (h : mark kind ++ rest = mark kind' ++ rest') : kind = kind' ∧ rest = rest' := by
  cases kind <;> cases kind' <;> simp_all [mark, ReferenceKind.name]

/-- A mark begins with the only character of its sort in it, so that two marks do not overlap. -/
theorem notMem_tail_mark (kind : ReferenceKind) : '#' ∉ (mark kind).tail := by
  cases kind <;> decide

theorem holdsMark_append {kind : ReferenceKind} (before after : List Char) :
    HoldsMark (before ++ (mark kind ++ after)) :=
  ⟨kind, before, after, List.append_assoc _ _ _⟩

/-- A name without marks ends where the first mark begins. -/
theorem eq_of_mark {kind kind' : ReferenceKind} {name more rest rest' : List Char}
    (hname : ¬ HoldsMark (name ++ more))
    (h : mark kind ++ rest = more ++ (mark kind' ++ rest')) :
    more = [] ∧ kind = kind' ∧ rest = rest' := by
  cases more with
  | nil => exact ⟨rfl, mark_inj h⟩
  | cons c more =>
      exfalso
      rcases List.append_eq_append_iff.1 h with ⟨after, hmore, -⟩ | ⟨left, hmark, hleft⟩
      · apply hname
        rw [hmore]
        exact holdsMark_append name after
      · cases left with
        | nil =>
            rw [List.append_nil] at hmark
            exact hname ⟨kind, name, [], by rw [hmark, List.append_nil]⟩
        | cons c' left =>
            have hhash : c' = '#' := (List.cons.inj hleft).1.symm
            have htail : (mark kind).tail = more ++ c' :: left := by rw [hmark]; rfl
            apply notMem_tail_mark kind
            rw [htail, hhash]
            exact List.mem_append_right _ List.mem_cons_self

theorem append_mark_inj {kind kind' : ReferenceKind} {name name' rest rest' : List Char}
    (hname : ¬ HoldsMark name) (hname' : ¬ HoldsMark name')
    (h : name ++ (mark kind ++ rest) = name' ++ (mark kind' ++ rest')) :
    name = name' ∧ kind = kind' ∧ rest = rest' := by
  rcases List.append_eq_append_iff.1 h with ⟨more, rfl, hrest⟩ | ⟨more, rfl, hrest⟩
  · obtain ⟨rfl, rfl, rfl⟩ := eq_of_mark hname' hrest
    exact ⟨(List.append_nil name).symm, rfl, rfl⟩
  · obtain ⟨rfl, rfl, rfl⟩ := eq_of_mark hname hrest
    exact ⟨List.append_nil name', rfl, rfl⟩

theorem rows_inj {steps steps' : List (List Char × ReferenceKind)} {last last' : List Char}
    (h : AreUnmarked steps last) (h' : AreUnmarked steps' last')
    (heq : rows steps last = rows steps' last') : steps = steps' ∧ last = last' := by
  induction steps generalizing steps' with
  | nil =>
      cases steps' with
      | nil => exact ⟨rfl, heq⟩
      | cons step' steps' =>
          obtain ⟨name', kind'⟩ := step'
          have hmark : HoldsMark last := by
            rw [show last = _ from heq]
            exact holdsMark_append name' _
          exact absurd hmark h.2
  | cons step steps ih =>
      obtain ⟨name, kind⟩ := step
      cases steps' with
      | nil =>
          have hmark : HoldsMark last' := by
            rw [show last' = _ from heq.symm]
            exact holdsMark_append name _
          exact absurd hmark h'.2
      | cons step' steps' =>
          obtain ⟨name', kind'⟩ := step'
          obtain ⟨hname, hnames⟩ := List.forall_mem_cons.1 h.1
          obtain ⟨hname', hnames'⟩ := List.forall_mem_cons.1 h'.1
          obtain ⟨rfl, rfl, hrest⟩ := append_mark_inj hname hname' heq
          obtain ⟨rfl, rfl⟩ := ih ⟨hnames, h.2⟩ ⟨hnames', h'.2⟩ hrest
          exact ⟨rfl, rfl⟩

/-! ## Cutting rows at their marks -/

theorem not_holdsMark_nil : ¬ HoldsMark [] := by
  rintro ⟨kind, hinfix⟩
  simp [mark] at hinfix

/-- One more character makes a mark only if the mark begins with it. -/
theorem exists_mark_of_cons {c : Char} {name : List Char} (hname : ¬ HoldsMark name)
    (h : HoldsMark (c :: name)) : ∃ kind rest, c :: name = mark kind ++ rest := by
  obtain ⟨kind, hinfix⟩ := h
  rcases List.infix_cons_iff.1 hinfix with ⟨rest, hrest⟩ | hinfix
  · exact ⟨kind, rest, hrest.symm⟩
  · exact absurd ⟨kind, hinfix⟩ hname

/-- A mark that has come up at the start of a name leaves the rest of the name unmarked. -/
theorem not_holdsMark_of_mark {c : Char} {name rest : List Char} {kind : ReferenceKind}
    (hname : ¬ HoldsMark name) (h : c :: name = mark kind ++ rest) : ¬ HoldsMark rest := by
  rintro ⟨kind', hinfix⟩
  have hrest : rest <:+ name := by
    refine ⟨(mark kind).tail, ?_⟩
    exact (List.cons.inj h).2.symm
  exact hname ⟨kind', hinfix.trans hrest.isInfix⟩

/-- Every text is made of the rows of unmarked names. -/
theorem exists_rows (text : List Char) :
    ∃ steps last, AreUnmarked steps last ∧ rows steps last = text := by
  induction text with
  | nil => exact ⟨[], [], ⟨by simp, not_holdsMark_nil⟩, rfl⟩
  | cons c text ih =>
      obtain ⟨steps, last, ⟨hsteps, hlast⟩, rfl⟩ := ih
      cases steps with
      | nil =>
          by_cases hmark : HoldsMark (c :: last)
          · obtain ⟨kind, rest, hrest⟩ := exists_mark_of_cons hlast hmark
            have hunmarked := not_holdsMark_of_mark hlast hrest
            exact ⟨[([], kind)], rest, ⟨by simp [not_holdsMark_nil], hunmarked⟩, hrest.symm⟩
          · exact ⟨[], c :: last, ⟨by simp, hmark⟩, rfl⟩
      | cons step steps =>
          obtain ⟨name, kind⟩ := step
          obtain ⟨hname, hnames⟩ := List.forall_mem_cons.1 hsteps
          by_cases hmark : HoldsMark (c :: name)
          · obtain ⟨kind', rest, hrest⟩ := exists_mark_of_cons hname hmark
            have hunmarked := not_holdsMark_of_mark hname hrest
            refine ⟨([], kind') :: (rest, kind) :: steps, last, ⟨?_, hlast⟩, ?_⟩
            · exact List.forall_mem_cons.2 ⟨not_holdsMark_nil,
                List.forall_mem_cons.2 ⟨hunmarked, hnames⟩⟩
            · change mark kind' ++ (rest ++ _) = c :: name ++ _
              rw [hrest, List.append_assoc]
          · exact ⟨(c :: name, kind) :: steps, last,
              ⟨List.forall_mem_cons.2 ⟨hmark, hnames⟩, hlast⟩, rfl⟩

namespace Trace

/-! ## Chains of traces -/

/-- What a signature is to tell of a trace: the kind of the root, the class and kind of each
reference, and the class of the leaking object. -/
def chain (t : Trace) : RootKind × List (String × ReferenceKind) × String :=
  (t.root, t.path.map fun h ↦ (h.originClass, h.kind), t.leaking.className)

/-- No class name of the trace holds a mark. -/
def IsUnmarked (t : Trace) : Prop :=
  (∀ h ∈ t.path, ¬ HoldsMark h.originClass.toList) ∧ ¬ HoldsMark t.leaking.className.toList

def steps (t : Trace) : List (List Char × ReferenceKind) :=
  t.path.map fun h ↦ (h.originClass.toList, h.kind)

variable {t t' : Trace}

theorem areUnmarked_iff : AreUnmarked t.steps t.leaking.className.toList ↔ t.IsUnmarked := by
  simp [AreUnmarked, IsUnmarked, steps]

theorem chain_eq_iff : t.chain = t'.chain ↔ t.root = t'.root ∧ t.steps = t'.steps ∧
    t.leaking.className.toList = t'.leaking.className.toList := by
  let spell (step : String × ReferenceKind) : List Char × ReferenceKind := (step.1.toList, step.2)
  have hspell : Function.Injective spell := by
    rintro ⟨name, kind⟩ ⟨name', kind'⟩ h
    simpa [spell, String.toList_inj] using h
  have hsteps (t : Trace) : t.steps = t.chain.2.1.map spell := by
    simp [steps, chain, spell]
  rw [hsteps, hsteps, (List.map_injective_iff.2 hspell).eq_iff, String.toList_inj]
  simp [chain]

/-- An outline is the root and, from the next line on, the rows of the classes. -/
theorem toList_outline (t : Trace) :
    t.outline.toList = t.root.name.toList ++ '\n' :: rows t.steps t.leaking.className.toList := by
  have hpath (path : List Hop) (last : List Char) :
      (path.flatMap fun h ↦ '\n' :: (h.originClass.toList ++ '#' :: h.kind.name.toList)) ++
        '\n' :: last =
      '\n' :: rows (path.map fun h ↦ (h.originClass.toList, h.kind)) last := by
    induction path with
    | nil => rfl
    | cons h path ih => simp [rows, mark, ih]
  rw [steps, ← hpath]
  simp [outline, String.toList_join, List.flatMap_map]

theorem name_append_inj {root root' : RootKind} {rest rest' : List Char}
    (h : root.name.toList ++ '\n' :: rest = root'.name.toList ++ '\n' :: rest') :
    root = root' ∧ rest = rest' := by
  cases root <;> cases root' <;> simp_all [RootKind.name]

theorem outline_eq_iff : t.outline = t'.outline ↔ t.root = t'.root ∧
    rows t.steps t.leaking.className.toList = rows t'.steps t'.leaking.className.toList := by
  rw [← String.toList_inj, toList_outline, toList_outline]
  constructor
  · exact name_append_inj
  · rintro ⟨hroot, hrows⟩
    rw [hroot, hrows]

theorem outline_eq_of_chain_eq (h : t.chain = t'.chain) : t.outline = t'.outline := by
  obtain ⟨hroot, hsteps, hlast⟩ := chain_eq_iff.1 h
  rw [outline_eq_iff, hsteps, hlast]
  exact ⟨hroot, rfl⟩

theorem chain_eq_of_outline_eq (hunmarked : t.IsUnmarked) (hunmarked' : t'.IsUnmarked)
    (h : t.outline = t'.outline) : t.chain = t'.chain := by
  obtain ⟨hroot, hrows⟩ := outline_eq_iff.1 h
  obtain ⟨hsteps, hlast⟩ :=
    rows_inj (areUnmarked_iff.2 hunmarked) (areUnmarked_iff.2 hunmarked') hrows
  exact chain_eq_iff.2 ⟨hroot, hsteps, hlast⟩

/-- Every outline is one of an unmarked trace. -/
theorem exists_isUnmarked (t : Trace) : ∃ t' : Trace, t'.IsUnmarked ∧ t.outline = t'.outline := by
  obtain ⟨steps, last, hunmarked, hrows⟩ := exists_rows (rows t.steps t.leaking.className.toList)
  let path : List Hop := steps.map fun step ↦ ⟨String.ofList step.1, "", step.2, none⟩
  let t' : Trace := ⟨t.root, path, { t.leaking with className := String.ofList last }⟩
  have hsteps : t'.steps = steps := by simp [t', path, Trace.steps, Function.comp_def]
  have hlast : t'.leaking.className.toList = last := by simp [t']
  refine ⟨t', ?_, ?_⟩
  · rw [← areUnmarked_iff, hsteps, hlast]
    exact hunmarked
  · rw [outline_eq_iff, hsteps, hlast]
    exact ⟨rfl, hrows.symm⟩

/-- Traces of one chain have one outline.  Conversely an outline tells the chain of a trace from
those of all unmarked traces, exactly if the trace is unmarked. -/
theorem outline_tells_chain_iff (t : Trace) :
    (∀ t' : Trace, t.chain = t'.chain → t.outline = t'.outline) ∧
      ((∀ t' : Trace, t'.IsUnmarked → t.outline = t'.outline → t.chain = t'.chain) ↔
        t.IsUnmarked) := by
  refine ⟨fun t' ↦ outline_eq_of_chain_eq, ?_, ?_⟩
  · intro htells
    obtain ⟨t', hunmarked, houtline⟩ := exists_isUnmarked t
    obtain ⟨-, hsteps, hlast⟩ := chain_eq_iff.1 (htells t' hunmarked houtline)
    rw [← areUnmarked_iff, hsteps, hlast]
    exact areUnmarked_iff.2 hunmarked
  · intro hunmarked t' hunmarked'
    exact chain_eq_of_outline_eq hunmarked hunmarked'

def heldNode : Trace :=
  ⟨.jniGlobal, [⟨"Cache", "held", .instanceField, some "Cache"⟩], ⟨11, "Node", "INSTANCE", ""⟩⟩

/-- The object is a root itself, and its class is called like the way to the other one. -/
def misnamedRoot : Trace :=
  ⟨.jniGlobal, [], ⟨12, "Cache#INSTANCE_FIELD\nNode", "INSTANCE", ""⟩⟩

theorem outline_not_injective :
    ¬ ∀ t t' : Trace, t.outline = t'.outline ↔ t.chain = t'.chain := by
  intro h
  have hsame : heldNode.chain = misnamedRoot.chain := (h heldNode misnamedRoot).1 (by decide)
  have hpaths := congrArg (fun chain ↦ chain.2.1.length) hsame
  exact absurd hpaths (by decide)

end Trace

end HeapSentry.Leak
