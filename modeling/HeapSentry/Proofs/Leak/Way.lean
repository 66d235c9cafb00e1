import HeapSentry.Leak.Search
import Mathlib.Data.Prod.Lex
import Mathlib.Data.List.TakeWhile

/-!
# Ways through a heap

A way is a list of references that follow each other.  Ways are compared by rank: first by how many
references there are from the first library reference on, then by how many there are in all.  The
plain ways are the ones that come first, the short ones among them before the long ones.
-/

namespace HeapSentry

namespace Heap.Graph

/-- The objects that are kept by themselves: roots that are objects of the graph. -/
def IsSource (g : Graph) (id : ObjectId) : Prop :=
  (∃ root ∈ g.roots, root.id = id) ∧ (g.object? id).isSome

/-- The kind of the first root with an id, if the id is an object. -/
def sourceKind? (g : Graph) (id : ObjectId) : Option RootKind :=
  if (g.object? id).isSome then (g.roots.toList.find? (·.id == id)).map Root.kind else none

theorem isSource_iff {g : Graph} {id : ObjectId} :
    g.IsSource id ↔ ∃ kind, g.sourceKind? id = some kind := by
  by_cases ho : (g.object? id).isSome
  · have hfind : (g.roots.toList.find? (·.id == id)).isSome ↔ ∃ root ∈ g.roots, root.id = id := by
      rw [List.find?_isSome]
      simp
    simp only [IsSource, sourceKind?, ho, and_true, if_true, ← hfind, Option.map_eq_some_iff]
    rw [Option.isSome_iff_exists, exists_comm]
    simp
  · simp [IsSource, sourceKind?, ho]

/-- The references of a way lead from one object to another, and each is admitted. -/
inductive Leads (g : Graph) (admits : Reference → Prop) (a : ObjectId) :
    List Reference → ObjectId → Prop where
  | nil : Leads g admits a [] a
  | snoc {way : List Reference} {b : ObjectId} {r : Reference} :
      Leads g admits a way b → r ∈ g.references b → admits r →
        Leads g admits a (way ++ [r]) r.target

/-- A way leads from some source to an object. -/
def LeadsTo (g : Graph) (admits : Reference → Prop) (way : List Reference) (id : ObjectId) : Prop :=
  ∃ source, g.IsSource source ∧ g.Leads admits source way id

/-- Some way of admitted references leads from a source to an object. -/
def Reaches (g : Graph) (admits : Reference → Prop) (id : ObjectId) : Prop :=
  ∃ way, g.LeadsTo admits way id

/-- The objects that a way passes, from the one it starts at to the one it leads to. -/
def passed (source : ObjectId) (way : List Reference) : List ObjectId :=
  source :: way.map Reference.target

@[simp] theorem length_passed (source : ObjectId) (way : List Reference) :
    (passed source way).length = way.length + 1 := by
  simp [passed]

theorem passed_snoc (source : ObjectId) (way : List Reference) (r : Reference) :
    passed source (way ++ [r]) = passed source way ++ [r.target] := by
  simp [passed]

variable {g : Graph} {admits admits' : Reference → Prop}

theorem Leads.admits_of_mem {a b : ObjectId} {way : List Reference}
    (h : g.Leads admits a way b) : ∀ r ∈ way, admits r := by
  induction h with
  | nil => simp
  | snoc _ _ hr ih =>
      intro r' hr'
      rcases List.mem_append.1 hr' with hr' | hr'
      · exact ih r' hr'
      · exact List.mem_singleton.1 hr' ▸ hr

theorem Leads.imp_mem {a b : ObjectId} {way : List Reference} (h : g.Leads admits a way b)
    (himp : ∀ r ∈ way, admits r → admits' r) : g.Leads admits' a way b := by
  induction h with
  | nil => exact .nil
  | snoc _ hmem hr ih =>
      refine .snoc (ih fun r' hr' ↦ himp r' (List.mem_append_left _ hr')) hmem ?_
      exact himp _ (by simp) hr

theorem LeadsTo.imp_mem {way : List Reference} {id : ObjectId} (h : g.LeadsTo admits way id)
    (himp : ∀ r ∈ way, admits r → admits' r) : g.LeadsTo admits' way id := by
  obtain ⟨source, hsource, hway⟩ := h
  exact ⟨source, hsource, hway.imp_mem himp⟩

end Heap.Graph

namespace Leak

open Heap

namespace Matcher

def IsFollowed (ms : List Matcher) (g : Graph) (r : Reference) : Prop :=
  standingOf ms g r ≠ .ignored

def IsPlain (ms : List Matcher) (g : Graph) (r : Reference) : Prop :=
  standingOf ms g r = .plain

/-- What describes the library that a reference leads into. -/
def libraryOf (ms : List Matcher) (g : Graph) (r : Reference) : Option String :=
  (standingOf ms g r).library?

theorem isPlain_iff {ms : List Matcher} {g : Graph} {r : Reference} :
    IsPlain ms g r ↔ IsFollowed ms g r ∧ libraryOf ms g r = none := by
  unfold IsPlain IsFollowed libraryOf
  cases standingOf ms g r <;> simp [Standing.library?]

end Matcher

open Matcher

variable (ms : List Matcher) (g : Graph)

/-- What describes the first library reference on a way. -/
def firstLibrary (way : List Reference) : Option String := way.findSome? (libraryOf ms g)

/-- The part of a way from its first library reference on. -/
def libraryPart (way : List Reference) : List Reference :=
  way.dropWhile fun r ↦ (libraryOf ms g r).isNone

/-- What ways are compared by. -/
def rank (way : List Reference) : ℕ ×ₗ ℕ := toLex ((libraryPart ms g way).length, way.length)

/-- The rank that a way through a library takes on when it follows one more reference. -/
def nextRank (way : List Reference) : ℕ ×ₗ ℕ :=
  toLex ((libraryPart ms g way).length + 1, way.length + 1)

variable {ms g}

@[simp] theorem firstLibrary_nil : firstLibrary ms g [] = none := rfl

@[simp] theorem rank_nil : rank ms g [] = toLex (0, 0) := rfl

theorem firstLibrary_snoc (way : List Reference) (r : Reference) :
    firstLibrary ms g (way ++ [r]) = (firstLibrary ms g way <|> libraryOf ms g r) := by
  cases h : libraryOf ms g r <;> simp [firstLibrary, h]

theorem firstLibrary_eq_none_iff {way : List Reference} :
    firstLibrary ms g way = none ↔ ∀ r ∈ way, libraryOf ms g r = none := by
  simp [firstLibrary]

theorem libraryPart_eq_nil_iff {way : List Reference} :
    libraryPart ms g way = [] ↔ firstLibrary ms g way = none := by
  simp [libraryPart, firstLibrary_eq_none_iff, List.dropWhile_eq_nil_iff]

theorem length_libraryPart_pos {way : List Reference} (h : (firstLibrary ms g way).isSome) :
    0 < (libraryPart ms g way).length := by
  rw [List.length_pos_iff, Ne, libraryPart_eq_nil_iff]
  intro hnone
  simp [hnone] at h

theorem rank_of_plain {way : List Reference} (h : firstLibrary ms g way = none) :
    rank ms g way = toLex (0, way.length) := by
  rw [rank, libraryPart_eq_nil_iff.2 h, List.length_nil]

theorem rank_snoc_of_library {way : List Reference} {r : Reference}
    (h : (firstLibrary ms g (way ++ [r])).isSome) :
    rank ms g (way ++ [r]) = nextRank ms g way := by
  have hpart : (libraryPart ms g (way ++ [r])).length = (libraryPart ms g way).length + 1 := by
    by_cases hway : firstLibrary ms g way = none
    · have hr : (libraryOf ms g r).isSome := by simpa [firstLibrary_snoc, hway] using h
      have hnil := libraryPart_eq_nil_iff.2 hway
      simp only [libraryPart, List.dropWhile_append] at hnil ⊢
      simp [hnil, Option.isSome_iff_ne_none.1 hr]
    · have hne := mt libraryPart_eq_nil_iff.1 hway
      simp only [libraryPart, List.dropWhile_append] at hne ⊢
      simp [hne]
  simp [rank, nextRank, hpart]

theorem leadsTo_plain_iff {way : List Reference} {id : ObjectId} :
    g.LeadsTo (IsPlain ms g) way id ↔
      g.LeadsTo (IsFollowed ms g) way id ∧ firstLibrary ms g way = none := by
  constructor
  · intro h
    refine ⟨h.imp_mem fun r _ hr ↦ (isPlain_iff.1 hr).1, ?_⟩
    obtain ⟨source, -, hleads⟩ := h
    exact firstLibrary_eq_none_iff.2 fun r hr ↦ (isPlain_iff.1 (hleads.admits_of_mem r hr)).2
  · rintro ⟨h, hnone⟩
    rw [firstLibrary_eq_none_iff] at hnone
    exact h.imp_mem fun r hr hfollowed ↦ isPlain_iff.2 ⟨hfollowed, hnone r hr⟩

/-- A plain way is preferred to every way through a library. -/
theorem rank_lt_of_plain_of_library {way way' : List Reference}
    (h : firstLibrary ms g way = none) (h' : (firstLibrary ms g way').isSome) :
    rank ms g way < rank ms g way' := by
  rw [rank_of_plain h, rank, Prod.Lex.toLex_lt_toLex]
  exact Or.inl (length_libraryPart_pos h')

theorem rank_lt_snoc (way : List Reference) (r : Reference) :
    rank ms g way < rank ms g (way ++ [r]) := by
  cases h : firstLibrary ms g (way ++ [r]) with
  | none =>
      have hway : firstLibrary ms g way = none := by
        rw [firstLibrary_snoc] at h
        cases hw : firstLibrary ms g way <;> simp_all
      rw [rank_of_plain h, rank_of_plain hway, Prod.Lex.toLex_lt_toLex]
      simp
  | some description =>
      rw [rank_snoc_of_library (by simp [h]), rank, nextRank, Prod.Lex.toLex_lt_toLex]
      exact Or.inl (Nat.lt_succ_self _)

theorem nextRank_mono {way way' : List Reference} (h : rank ms g way ≤ rank ms g way') :
    nextRank ms g way ≤ nextRank ms g way' := by
  simp only [rank, nextRank, Prod.Lex.toLex_le_toLex] at h ⊢
  omega

theorem plain_of_rank_le {way way' : List Reference} (h : rank ms g way ≤ rank ms g way')
    (hway' : firstLibrary ms g way' = none) :
    firstLibrary ms g way = none ∧ way.length ≤ way'.length := by
  have hway : firstLibrary ms g way = none := by
    by_contra hway
    exact absurd h (not_le.2 (rank_lt_of_plain_of_library hway' (Option.isSome_iff_ne_none.2 hway)))
  refine ⟨hway, ?_⟩
  rw [rank_of_plain hway, rank_of_plain hway'] at h
  simpa [Prod.Lex.toLex_le_toLex] using h

theorem plain_of_plain_snoc {way : List Reference} {r : Reference}
    (h : firstLibrary ms g (way ++ [r]) = none) : firstLibrary ms g way = none :=
  (plain_of_rank_le (rank_lt_snoc way r).le h).1

/-- Following the same reference keeps the order of ways. -/
theorem rank_snoc_mono {way way' : List Reference} (h : rank ms g way ≤ rank ms g way')
    (r : Reference) : rank ms g (way ++ [r]) ≤ rank ms g (way' ++ [r]) := by
  cases hr' : firstLibrary ms g (way' ++ [r]) with
  | none =>
      obtain ⟨hway, hlength⟩ := plain_of_rank_le h (plain_of_plain_snoc hr')
      have hr : firstLibrary ms g (way ++ [r]) = none := by
        simp only [firstLibrary_snoc, plain_of_plain_snoc hr', hway] at hr' ⊢
        exact hr'
      rw [rank_of_plain hr, rank_of_plain hr', Prod.Lex.toLex_le_toLex]
      simpa using hlength
  | some description =>
      cases hr : firstLibrary ms g (way ++ [r]) with
      | none => exact (rank_lt_of_plain_of_library hr (by simp [hr'])).le
      | some description' =>
          rw [rank_snoc_of_library (by simp [hr]), rank_snoc_of_library (by simp [hr'])]
          exact nextRank_mono h

end Leak

end HeapSentry
