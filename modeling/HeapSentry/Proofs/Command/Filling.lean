import HeapSentry.Command.Placeholder
import Mathlib.Data.List.Forall2
import Mathlib.Logic.Function.Basic

/-!
# Filling in placeholders

An argument falls into placeholders and other characters in one way only, as no placeholder overlaps
another one.  Filling in the placeholders for the process and then those for the file comes to
filling in both at once: digits neither make up a placeholder nor complete one, and the path is put
in last.
-/

namespace HeapSentry.Command

/-! ## The fragments of an argument -/

inductive Placeholder where
  | process | file
  deriving DecidableEq

namespace Placeholder

def text : Placeholder → List Char
  | process => "\x7bpid\x7d".toList
  | file => "\x7bpath\x7d".toList

def mark : Placeholder → List Char
  | process => pidMark
  | file => pathMark

/-- What is put in place of a placeholder. -/
def value (pid : Nat) (path : String) : Placeholder → List Char
  | process => Nat.toDigits 10 pid
  | file => path.toList

end Placeholder

inductive Fragment where
  | plain (c : Char)
  | hole (p : Placeholder)

/-- The characters of a fragment, with something put in place of each placeholder. -/
def Fragment.fill (put : Placeholder → List Char) : Fragment → List Char
  | plain c => [c]
  | hole p => put p

def spell (put : Placeholder → List Char) (fragments : List Fragment) : List Char :=
  fragments.flatMap (Fragment.fill put)

/-- Fragments make up an argument, and every occurrence of a placeholder in it is a fragment. -/
structure Dissects (fragments : List Fragment) (argument : List Char) : Prop where
  spell_eq : spell Placeholder.text fragments = argument
  hole_of_occurrence : ∀ (p : Placeholder) (before after : List Char),
    argument = before ++ (p.text ++ after) →
      ∃ earlier later, fragments = earlier ++ .hole p :: later ∧
        spell Placeholder.text earlier = before ∧ spell Placeholder.text later = after

section Spelling

variable {put : Placeholder → List Char} {p : Placeholder} {c : Char} {fragments : List Fragment}

@[simp] theorem spell_nil : spell put [] = [] := rfl

@[simp] theorem spell_plain : spell put (.plain c :: fragments) = c :: spell put fragments := rfl

@[simp] theorem spell_hole : spell put (.hole p :: fragments) = put p ++ spell put fragments := rfl

end Spelling

/-! ## Placeholders do not overlap -/

namespace Placeholder

theorem text_eq (p : Placeholder) : p.text = placeholderStart :: p.mark := by
  cases p <;> rfl

theorem start_notMem_mark (p : Placeholder) : placeholderStart ∉ p.mark := by
  cases p <;> decide

theorem eq_of_mark_append_eq {p q : Placeholder} {xs ys : List Char}
    (h : p.mark ++ xs = q.mark ++ ys) : p = q := by
  cases p <;> cases q <;> simp_all [mark, pidMark, pathMark]

theorem eq_of_text_append_eq {p q : Placeholder} {xs ys : List Char}
    (h : p.text ++ xs = q.text ++ ys) : p = q := by
  rw [text_eq, text_eq, List.cons_append, List.cons_append] at h
  exact eq_of_mark_append_eq (List.cons.inj h).2

/-- A placeholder that starts after the start of another one starts after its end. -/
theorem exists_append_of_overlap {p q : Placeholder} {before after rest : List Char}
    (h : q.text ++ rest = before ++ (p.text ++ after)) (hbefore : before ≠ []) :
    ∃ between, before = q.text ++ between ∧ rest = between ++ (p.text ++ after) := by
  rcases List.append_eq_append_iff.1 h with hlong | ⟨overlap, htext, hafter⟩
  · exact hlong
  cases overlap with
  | nil => exact ⟨[], by simpa using htext.symm, by simpa using hafter.symm⟩
  | cons c overlap =>
      rw [text_eq p, List.cons_append, List.cons_append] at hafter
      obtain rfl := (List.cons.inj hafter).1
      obtain ⟨b, before, rfl⟩ := List.exists_cons_of_ne_nil hbefore
      rw [text_eq, List.cons_append] at htext
      have hmem : placeholderStart ∈ q.mark := by
        rw [(List.cons.inj htext).2]
        exact List.mem_append_cons_self
      exact absurd hmem q.start_notMem_mark

/-- The placeholder at the start of a text. -/
def at? (cs : List Char) : Option Placeholder :=
  [process, file].find? fun p ↦ p.text.isPrefixOf cs

theorem exists_of_at? {p : Placeholder} {cs : List Char} (h : at? cs = some p) :
    ∃ rest, cs = p.text ++ rest := by
  have hprefix := List.find?_some h
  obtain ⟨rest, hrest⟩ := List.isPrefixOf_iff_prefix.1 hprefix
  exact ⟨rest, hrest.symm⟩

theorem at?_text_append (p : Placeholder) (rest : List Char) : at? (p.text ++ rest) = some p := by
  have hsome : (at? (p.text ++ rest)).isSome := by
    rw [at?, List.find?_isSome]
    refine ⟨p, by cases p <;> simp, ?_⟩
    exact List.isPrefixOf_iff_prefix.2 (List.prefix_append _ _)
  obtain ⟨q, hq⟩ := Option.isSome_iff_exists.1 hsome
  obtain ⟨rest', heq⟩ := exists_of_at? hq
  rw [hq, eq_of_text_append_eq heq]

end Placeholder

/-! ## Taking an argument apart -/

/-- Takes an argument apart from the left to the right. -/
def dissect : List Char → List Fragment
  | [] => []
  | c :: cs =>
    match Placeholder.at? (c :: cs) with
    | some p => .hole p :: dissect (cs.drop p.mark.length)
    | none => .plain c :: dissect cs
termination_by cs => cs.length
decreasing_by all_goals (simp only [List.length_drop, List.length_cons]; omega)

theorem dissect_text_append (p : Placeholder) (rest : List Char) :
    dissect (p.text ++ rest) = .hole p :: dissect rest := by
  have hat := p.at?_text_append rest
  rw [p.text_eq, List.cons_append] at hat ⊢
  rw [dissect, hat]
  simp

theorem dissect_cons {c : Char} {cs : List Char} (h : Placeholder.at? (c :: cs) = none) :
    dissect (c :: cs) = .plain c :: dissect cs := by
  rw [dissect, h]

theorem Dissects.cons_plain {c : Char} {cs : List Char} {fragments : List Fragment}
    (h : Dissects fragments cs) (hat : Placeholder.at? (c :: cs) = none) :
    Dissects (.plain c :: fragments) (c :: cs) := by
  refine ⟨by rw [spell_plain, h.spell_eq], fun p before after heq ↦ ?_⟩
  cases before with
  | nil =>
      rw [List.nil_append] at heq
      rw [heq, p.at?_text_append] at hat
      cases hat
  | cons b before =>
      obtain ⟨rfl, hcs⟩ := List.cons.inj heq
      obtain ⟨earlier, later, rfl, hbefore, hafter⟩ := h.hole_of_occurrence p before after hcs
      refine ⟨.plain c :: earlier, later, rfl, ?_, hafter⟩
      rw [spell_plain, hbefore]

theorem Dissects.cons_hole {q : Placeholder} {rest : List Char} {fragments : List Fragment}
    (h : Dissects fragments rest) : Dissects (.hole q :: fragments) (q.text ++ rest) := by
  refine ⟨by rw [spell_hole, h.spell_eq], fun p before after heq ↦ ?_⟩
  by_cases hnil : before = []
  · subst hnil
    rw [List.nil_append] at heq
    obtain rfl := Placeholder.eq_of_text_append_eq heq
    refine ⟨[], fragments, rfl, rfl, ?_⟩
    rw [h.spell_eq, List.append_cancel_left heq]
  · obtain ⟨between, rfl, hrest⟩ := Placeholder.exists_append_of_overlap heq hnil
    obtain ⟨earlier, later, rfl, hbefore, hafter⟩ := h.hole_of_occurrence p between after hrest
    refine ⟨.hole q :: earlier, later, rfl, ?_, hafter⟩
    rw [spell_hole, hbefore]

theorem dissects_dissect (argument : List Char) : Dissects (dissect argument) argument := by
  induction hn : argument.length using Nat.strongRecOn generalizing argument with
  | ind n ih =>
  subst hn
  cases argument with
  | nil =>
      refine ⟨by simp [dissect], fun p before after heq ↦ ?_⟩
      rw [p.text_eq] at heq
      simp at heq
  | cons c cs =>
      cases hat : Placeholder.at? (c :: cs) with
      | none =>
          rw [dissect_cons hat]
          exact (ih cs.length (by simp) cs rfl).cons_plain hat
      | some q =>
          obtain ⟨rest, hargument⟩ := Placeholder.exists_of_at? hat
          have hshorter : rest.length < (c :: cs).length := by
            rw [hargument, q.text_eq, List.length_append, List.length_cons]
            omega
          rw [hargument, dissect_text_append]
          exact (ih rest.length hshorter rest rfl).cons_hole

/-! ## There is one way only -/

section Uniqueness

variable {fragment : Fragment} {fragments : List Fragment} {argument : List Char}

theorem Fragment.fill_text_ne_nil (fragment : Fragment) : fragment.fill Placeholder.text ≠ [] := by
  cases fragment with
  | plain c => simp [fill]
  | hole p => simp [fill, p.text_eq]

theorem eq_nil_of_spell_eq_nil (h : spell Placeholder.text fragments = []) : fragments = [] := by
  cases fragments with
  | nil => rfl
  | cons fragment fragments =>
      have hfragment := (List.append_eq_nil_iff.1 h).1
      exact absurd hfragment fragment.fill_text_ne_nil

theorem Dissects.tail (h : Dissects (fragment :: fragments) argument) :
    Dissects fragments (spell Placeholder.text fragments) := by
  refine ⟨rfl, fun p before after heq ↦ ?_⟩
  have hargument : argument = (fragment.fill Placeholder.text ++ before) ++ (p.text ++ after) := by
    rw [← h.spell_eq, List.append_assoc, ← heq]
    rfl
  obtain ⟨earlier, later, hfragments, hbefore, hafter⟩ := h.hole_of_occurrence p _ after hargument
  cases earlier with
  | nil =>
      have hempty := (List.append_eq_nil_iff.1 hbefore.symm).1
      exact absurd hempty fragment.fill_text_ne_nil
  | cons first earlier =>
      obtain ⟨rfl, rfl⟩ := List.cons.inj hfragments
      exact ⟨earlier, later, rfl, List.append_cancel_left hbefore, hafter⟩

/-- An argument that starts with a placeholder has it as its first fragment. -/
theorem Dissects.exists_hole {p : Placeholder} {rest : List Char}
    (h : Dissects fragments (p.text ++ rest)) : ∃ later, fragments = .hole p :: later := by
  obtain ⟨earlier, later, rfl, hbefore, -⟩ := h.hole_of_occurrence p [] rest rfl
  rw [eq_nil_of_spell_eq_nil hbefore]
  exact ⟨later, rfl⟩

theorem Dissects.unique {others : List Fragment} (h : Dissects fragments argument)
    (hothers : Dissects others argument) : fragments = others := by
  induction fragments generalizing others argument with
  | nil =>
      rw [← h.spell_eq] at hothers
      exact (eq_nil_of_spell_eq_nil hothers.spell_eq).symm
  | cons fragment fragments ih =>
      have hargument := h.spell_eq
      cases fragment with
      | hole p =>
          rw [spell_hole] at hargument
          subst hargument
          obtain ⟨later, rfl⟩ := hothers.exists_hole
          have hrest : spell Placeholder.text later = spell Placeholder.text fragments :=
            List.append_cancel_left hothers.spell_eq
          have hlater := hothers.tail
          rw [hrest] at hlater
          rw [ih h.tail hlater]
      | plain c =>
          rw [spell_plain] at hargument
          subst hargument
          cases others with
          | nil => cases hothers.spell_eq
          | cons other others =>
              cases other with
              | hole q =>
                  rw [← hothers.spell_eq] at h
                  obtain ⟨later, hfragments⟩ := h.exists_hole
                  cases hfragments
              | plain c' =>
                  have hspell := hothers.spell_eq
                  rw [spell_plain] at hspell
                  obtain ⟨rfl, hrest⟩ := List.cons.inj hspell
                  have hlater := hothers.tail
                  rw [hrest] at hlater
                  rw [ih h.tail hlater]

end Uniqueness

/-! ## One pass -/

section Passes

variable {first : Char} {mark filling : List Char}

theorem replaceAll_mark (back : List Char) :
    replaceAll first mark filling (first :: (mark ++ back)) =
      filling ++ replaceAll first mark filling back := by
  have hprefix : mark.isPrefixOf (mark ++ back) = true :=
    List.isPrefixOf_iff_prefix.2 (List.prefix_append _ _)
  rw [replaceAll, if_pos ⟨rfl, hprefix⟩, List.drop_left]

theorem replaceAll_cons {c : Char} {cs : List Char} (h : c = first → ¬ mark <+: cs) :
    replaceAll first mark filling (c :: cs) = c :: replaceAll first mark filling cs := by
  rw [replaceAll, if_neg]
  rintro ⟨hc, hprefix⟩
  exact h hc (List.isPrefixOf_iff_prefix.1 hprefix)

theorem replaceAll_append {front : List Char} (h : first ∉ front) (back : List Char) :
    replaceAll first mark filling (front ++ back) =
      front ++ replaceAll first mark filling back := by
  induction front with
  | nil => rfl
  | cons c front ih =>
      rw [List.mem_cons, not_or] at h
      rw [List.cons_append, replaceAll_cons fun heq ↦ absurd heq.symm h.1, ih h.2]
      rfl

end Passes

/-- Whether a pass for a placeholder goes over a text as it is, and no mark reaches into it from
before. -/
def IsInert (p : Placeholder) (cs : List Char) : Prop :=
  ∃ c rest, cs = c :: rest ∧ c ∉ p.mark ∧ placeholderStart ∉ rest ∧
    (c = placeholderStart → ∀ back, ¬ p.mark <+: rest ++ back)

theorem isInert_text {p q : Placeholder} (h : q ≠ p) : IsInert p q.text := by
  refine ⟨_, _, q.text_eq, p.start_notMem_mark, q.start_notMem_mark, fun _ back hprefix ↦ ?_⟩
  obtain ⟨rest, hrest⟩ := hprefix
  exact h (Placeholder.eq_of_mark_append_eq hrest).symm

theorem isInert_digits (p : Placeholder) (n : Nat) : IsInert p (Nat.toDigits 10 n) := by
  have hdigits : ∀ d ∈ Nat.toDigits 10 n, d.isDigit = true := fun d hd ↦
    Nat.isDigit_of_mem_toDigits (by decide) (by decide) hd
  obtain ⟨d, ds, heq⟩ := List.exists_cons_of_ne_nil (Nat.toDigits_ne_nil (b := 10) (n := n))
  rw [heq, List.forall_mem_cons] at hdigits
  obtain ⟨hd, hds⟩ := hdigits
  have hmark : p.mark.filter Char.isDigit = [] := by cases p <;> rfl
  have hstart : placeholderStart.isDigit = false := by decide
  refine ⟨d, ds, heq, fun hmem ↦ ?_, fun hmem ↦ ?_, ?_⟩
  · exact List.filter_eq_nil_iff.1 hmark d hmem hd
  · exact Bool.false_ne_true (hstart.symm.trans (hds _ hmem))
  · rintro rfl
    exact absurd (hstart.symm.trans hd) Bool.false_ne_true

section Pass

variable {p : Placeholder} {put : Placeholder → List Char}

/-- What stands for placeholders takes no part in completing a mark. -/
theorem prefix_spell_of_prefix {mark : List Char} {fragments : List Fragment}
    (hput : ∀ q, ∃ c cs, put q = c :: cs ∧ c ∉ mark) (put' : Placeholder → List Char)
    (h : mark <+: spell put fragments) : mark <+: spell put' fragments := by
  induction fragments generalizing mark with
  | nil =>
      rw [List.prefix_nil.1 h]
      exact List.nil_prefix
  | cons fragment fragments ih =>
      cases mark with
      | nil => exact List.nil_prefix
      | cons m mark =>
          cases fragment with
          | plain c =>
              obtain ⟨rfl, hrest⟩ := List.cons_prefix_cons.1 h
              apply List.cons_prefix_cons.2
              refine ⟨rfl, ih (fun q ↦ ?_) hrest⟩
              obtain ⟨d, ds, hq, hd⟩ := hput q
              exact ⟨d, ds, hq, fun hmem ↦ hd (List.mem_cons_of_mem _ hmem)⟩
          | hole q =>
              obtain ⟨d, ds, hq, hd⟩ := hput q
              rw [spell_hole, hq, List.cons_append] at h
              obtain ⟨rfl, -⟩ := List.cons_prefix_cons.1 h
              exact absurd List.mem_cons_self hd

/-- A pass puts in what it is to put in, and leaves all other fragments as they are. -/
theorem replaceAll_spell {filling : List Char} {fragments : List Fragment} {argument : List Char}
    (hown : put p = p.text) (hothers : ∀ q ≠ p, IsInert p (put q))
    (h : Dissects fragments argument) :
    replaceAll placeholderStart p.mark filling (spell put fragments) =
      spell (Function.update put p filling) fragments := by
  have hput : ∀ q, ∃ c cs, put q = c :: cs ∧ c ∉ p.mark := by
    intro q
    by_cases hq : q = p
    · subst hq
      exact ⟨_, _, hown.trans q.text_eq, q.start_notMem_mark⟩
    · obtain ⟨c, cs, hc, hmark, -⟩ := hothers q hq
      exact ⟨c, cs, hc, hmark⟩
  induction fragments generalizing argument with
  | nil => simp [replaceAll]
  | cons fragment fragments ih =>
      have hrest := ih h.tail
      cases fragment with
      | plain c =>
          rw [spell_plain, spell_plain, replaceAll_cons, hrest]
          rintro rfl hprefix
          obtain ⟨rest, hmark⟩ := prefix_spell_of_prefix hput Placeholder.text hprefix
          have hargument := h.spell_eq
          rw [spell_plain, ← hmark, ← List.cons_append, ← p.text_eq] at hargument
          rw [← hargument] at h
          obtain ⟨later, hfragments⟩ := h.exists_hole
          cases hfragments
      | hole q =>
          rw [spell_hole, spell_hole]
          by_cases hq : q = p
          · subst hq
            rw [hown, q.text_eq, List.cons_append, replaceAll_mark, hrest, Function.update_self]
          · obtain ⟨c, cs, hc, -, hstart, hmark⟩ := hothers q hq
            rw [Function.update_of_ne hq, hc, List.cons_append,
              replaceAll_cons fun heq ↦ hmark heq _, replaceAll_append hstart, hrest]
            rfl

end Pass

/-! ## Both passes -/

theorem update_update_text (pid : Nat) (path : String) :
    Function.update (Function.update Placeholder.text .process (Nat.toDigits 10 pid)) .file
      path.toList = Placeholder.value pid path := by
  funext p
  cases p <;> rfl

theorem toList_fillIn (pid : Nat) (path argument : String) {fragments : List Fragment}
    (h : Dissects fragments argument.toList) :
    (fillIn pid path argument).toList = spell (Placeholder.value pid path) fragments := by
  have hnumbered : replaceAll placeholderStart pidMark (Nat.toDigits 10 pid) argument.toList =
      spell (Function.update Placeholder.text .process (Nat.toDigits 10 pid)) fragments := by
    rw [← h.spell_eq]
    exact replaceAll_spell (p := .process) rfl (fun q hq ↦ isInert_text hq) h
  have hothers : ∀ q ≠ Placeholder.file,
      IsInert .file (Function.update Placeholder.text .process (Nat.toDigits 10 pid) q) := by
    intro q hq
    cases q with
    | process => exact isInert_digits .file pid
    | file => exact absurd rfl hq
  rw [fillIn, String.toList_ofList, hnumbered, ← update_update_text]
  exact replaceAll_spell (p := .file) rfl hothers h

/-- Each argument falls into fragments in one way, and what becomes of it is what stands for each of
them. -/
theorem dumpArguments_spell_fragments (pid : Nat) (path : String) (command : List String) :
    List.Forall₂ (fun argument filled ↦ ∃ fragments,
        (∀ others, Dissects others argument.toList ↔ others = fragments) ∧
          filled.toList = spell (Placeholder.value pid path) fragments)
      command (dumpArguments pid path command) := by
  rw [dumpArguments, List.forall₂_map_right_iff, List.forall₂_same]
  intro argument _
  have hfragments := dissects_dissect argument.toList
  refine ⟨_, fun others ↦ ⟨fun h ↦ h.unique hfragments, ?_⟩, toList_fillIn pid path argument ?_⟩
  · rintro rfl
    exact hfragments
  · exact hfragments

-- Neither a path that looks like placeholders nor what closes around digits is taken for one.
example : fillIn 42 "/\x7bpid\x7d/\x7bpath\x7d" "\x7bpa\x7bpid\x7dth\x7d\x7bpath\x7d" =
    "\x7bpa42th\x7d/\x7bpid\x7d/\x7bpath\x7d" := by cbv

end HeapSentry.Command
