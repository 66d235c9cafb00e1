import HeapSentry.Proofs.Heap.Inventory
import Mathlib.Data.List.Perm.Subperm

/-!
# Handing out ids

A builder hands out the first free id from a fixed one on.  All ids between the two are taken, so
there are no more of them than objects, and no edit of a history short of `2 ^ 63` runs out of ids.
Every edit does to the graph what it says it does, or nothing at all.
-/

namespace HeapSentry.Heap

/-! ## Edits as they are meant -/

/-- The object that an edit makes under an id that it is given. -/
def Edit.make? : Edit → Option (ObjectId → Object)
  | .newClass name superclass statics => some (Builder.newClass name superclass statics)
  | .newInstance classId fields => some fun id ↦ .ofInstance ⟨id, classId, fields⟩
  | .newPrimitiveArray elementType length =>
      some fun id ↦ .ofPrimitiveArray ⟨id, elementType, length⟩
  | .newObjectArray classId elements => some fun id ↦ .ofObjectArray ⟨id, classId, elements⟩
  | .insert _ | .root _ | .setFields _ _ => none

abbrev Edit.Answer := Except Fault (Option ObjectId)

namespace Inventory

/-- What an edit makes of an inventory, and what it answers. -/
inductive Step : Inventory → Edit → Edit.Answer → Inventory → Prop
  | make {v : Inventory} {edit : Edit} {object : ObjectId → Object} {id : ObjectId}
      (hmake : edit.make? = some object) (hnew : id ∉ v.ids) :
      Step v edit (.ok (some id)) (v.add (object id))
  | insert {v : Inventory} {o : Object} (hnew : o.id ∉ v.ids) :
      Step v (.insert o) (.ok (some o.id)) (v.add o)
  | refuse {v : Inventory} {o : Object} (hold : o.id ∈ v.ids) :
      Step v (.insert o) (.error (.duplicateObject o.id)) v
  | root {v : Inventory} (r : Root) : Step v (.root r) (.ok none) (v.addRoot r)
  | setFields {v : Inventory} {slot : Nat} {i : Instance} {fields : List Field}
      (hslot : v.objects[slot]? = some (.ofInstance i)) :
      Step v (.setFields i.id fields) (.ok none) (v.setFields slot i fields)
  | lack {v : Inventory} {id : ObjectId} {fields : List Field}
      (hlack : ∀ i : Instance, .ofInstance i ∈ v.objects → i.id ≠ id) :
      Step v (.setFields id fields) (.error (.unknownObject id)) v

/-- The steps of a history with their answers. -/
inductive Account : Inventory → List Edit → List Edit.Answer → Inventory → Prop
  | nil {v : Inventory} : Account v [] [] v
  | cons {v v' last : Inventory} {edit : Edit} {answer : Edit.Answer} {edits : List Edit}
      {answers : List Edit.Answer} (hstep : Step v edit answer v')
      (hrest : Account v' edits answers last) :
      Account v (edit :: edits) (answer :: answers) last

theorem Step.length_le {v v' : Inventory} {edit : Edit} {answer : Edit.Answer}
    (h : Step v edit answer v') : v'.objects.length ≤ v.objects.length + 1 := by
  cases h with
  | make | insert => simp [add]
  | refuse | root | lack => simp [addRoot]
  | setFields => simp [Inventory.setFields]

theorem Step.ids_subset {v v' : Inventory} {edit : Edit} {answer : Edit.Answer}
    (h : Step v edit answer v') : v.ids ⊆ v'.ids := by
  cases h with
  | make | insert => simp [ids, add]
  | refuse | root | lack => simp [ids, addRoot]
  | @setFields _ _ fields hslot =>
      have hids := v.map_setFields (f := Object.id) fields hslot rfl
      simp [ids, hids]

end Inventory

namespace Builder

/-! ## The ids that are handed out -/

def firstId : ObjectId := 0x700001000

/-- The ids that may be handed out, in order. -/
def nthId (n : Nat) : ObjectId := firstId + UInt64.ofNat n

theorem nthId_succ (n : Nat) : nthId n + 1 = nthId (n + 1) := by
  simp [nthId, UInt64.add_assoc]

theorem nthId_inj {m n : Nat} (hm : m < 2 ^ 64) (hn : n < 2 ^ 64) (h : nthId m = nthId n) :
    m = n := by
  have hsame := congrArg UInt64.toNat ((UInt64.add_right_inj firstId).1 h)
  rwa [UInt64.toNat_ofNat_of_lt' hm, UInt64.toNat_ofNat_of_lt' hn] at hsame

/-- No more ids in a row are taken than there are objects. -/
theorem le_length_of_taken {v : Inventory} {n : Nat} (hn : n ≤ 2 ^ 64)
    (h : ∀ k < n, nthId k ∈ v.ids) : n ≤ v.objects.length := by
  have hnodup : ((List.range n).map nthId).Nodup := by
    refine List.Nodup.map_on ?_ List.nodup_range
    intro j hj k hk heq
    rw [List.mem_range] at hj hk
    exact nthId_inj (by omega) (by omega) heq
  have hsubset : (List.range n).map nthId ⊆ v.ids := by
    intro id hid
    obtain ⟨k, hk, rfl⟩ := List.mem_map.1 hid
    exact h k (List.mem_range.1 hk)
  have hlength := (hnodup.subperm hsubset).length_le
  simpa [Inventory.ids] using hlength

/-- The search goes over taken ids only, and stops at a free one unless it has run out of steps. -/
theorem exists_freeId_eq (g : Graph) (fuel n : Nat) :
    ∃ k ≤ fuel, freeId g fuel (nthId n) = nthId (n + k) ∧
      (∀ j < k, g.contains (nthId (n + j)) = true) ∧
        (g.contains (nthId (n + k)) = true → k = fuel) := by
  induction fuel generalizing n with
  | zero => exact ⟨0, Nat.le_refl 0, rfl, by simp, by simp⟩
  | succ fuel ih =>
      cases htaken : g.contains (nthId n) with
      | false => exact ⟨0, by simp, by simp [freeId, htaken], by simp, by simp [htaken]⟩
      | true =>
          obtain ⟨k, hk, hfree, hbefore, hlast⟩ := ih (n + 1)
          have hshift (j : Nat) : n + 1 + j = n + (j + 1) := by omega
          simp only [hshift] at hfree hbefore hlast
          refine ⟨k + 1, by omega, ?_, ?_, fun h ↦ by rw [hlast h]⟩
          · rw [freeId, htaken, if_pos rfl, nthId_succ, hfree]
          · rintro (_ | j) hj
            · exact htaken
            · exact hbefore j (by omega)

/-- The graph tabulates the inventory, and all ids before the next one are taken. -/
structure IsAt (b : Builder) (v : Inventory) : Prop where
  tabulates : b.graph.Tabulates v
  counted : ∃ n ≤ 2 ^ 63, b.nextId = nthId n ∧ ∀ k < n, nthId k ∈ v.ids

section

variable {b : Builder} {v : Inventory}

theorem isAt_empty : IsAt {} {} :=
  ⟨Graph.Tabulates.empty, 0, by simp, by simp [nthId, firstId], by simp⟩

theorem IsAt.of_nextId_eq {b' : Builder} {v' : Inventory} (h : b.IsAt v)
    (htabulates : b'.graph.Tabulates v') (hnext : b'.nextId = b.nextId) (hids : v.ids ⊆ v'.ids) :
    b'.IsAt v' := by
  obtain ⟨n, hn, heq, htaken⟩ := h.counted
  exact ⟨htabulates, n, hn, hnext.trans heq, fun k hk ↦ hids (htaken k hk)⟩

/-- The id that is handed out is the first one that is not taken. -/
theorem IsAt.freshId_eq (h : b.IsAt v) (hroom : v.objects.length < 2 ^ 63) :
    ∃ n ≤ v.objects.length, b.freshId = nthId n ∧ nthId n ∉ v.ids ∧ ∀ k < n, nthId k ∈ v.ids := by
  obtain ⟨m, hm, hnext, htaken⟩ := h.counted
  obtain ⟨k, hk, hfree, hbefore, hlast⟩ := exists_freeId_eq b.graph b.graph.size m
  rw [h.tabulates.size_eq] at hk hlast
  have hall : ∀ j < m + k, nthId j ∈ v.ids := by
    intro j hj
    rcases Nat.lt_or_ge j m with hearly | hlate
    · exact htaken j hearly
    · obtain ⟨i, rfl⟩ := Nat.exists_eq_add_of_le hlate
      exact h.tabulates.contains_iff.1 (hbefore i (by omega))
  refine ⟨m + k, le_length_of_taken (by omega) hall, ?_, fun hmem ↦ ?_, hall⟩
  · rw [freshId, hnext, hfree]
  · have hk := hlast (h.tabulates.contains_iff.2 hmem)
    have hmore : m + k + 1 ≤ v.objects.length := by
      apply le_length_of_taken (by omega)
      intro j hj
      rcases Nat.lt_succ_iff_lt_or_eq.1 hj with hj | rfl
      · exact hall j hj
      · exact hmem
    omega

theorem IsAt.freshId_notMem (h : b.IsAt v) (hroom : v.objects.length < 2 ^ 63) :
    b.freshId ∉ v.ids := by
  obtain ⟨n, -, hfresh, hnew, -⟩ := h.freshId_eq hroom
  rwa [hfresh]

theorem IsAt.toNat_freshId_lt (h : b.IsAt v) (hroom : v.objects.length < 2 ^ 63) :
    b.freshId.toNat + 1 < 2 ^ 64 := by
  obtain ⟨n, hn, hfresh, -, -⟩ := h.freshId_eq hroom
  have hfirst : firstId.toNat = 0x700001000 := rfl
  have hcount : (UInt64.ofNat n).toNat = n := by
    apply UInt64.toNat_ofNat_of_lt'
    change n < 2 ^ 64
    omega
  rw [hfresh, nthId, UInt64.toNat_add, hfirst, hcount]
  omega

/-! ## One edit -/

theorem id_of_make? {edit : Edit} {object : ObjectId → Object} (h : edit.make? = some object)
    (id : ObjectId) : (object id).id = id := by
  cases edit <;> cases h <;> rfl

theorem apply_of_make? (b : Builder) {edit : Edit} {object : ObjectId → Object}
    (h : edit.make? = some object) : b.apply edit = (.ok (some b.freshId), b.add object) := by
  cases edit <;> cases h <;> rfl

theorem IsAt.add (h : b.IsAt v) (hroom : v.objects.length < 2 ^ 63) {object : ObjectId → Object}
    (hid : (object b.freshId).id = b.freshId) : (b.add object).IsAt (v.add (object b.freshId)) := by
  obtain ⟨n, hn, hfresh, hnew, htaken⟩ := h.freshId_eq hroom
  have hids : (v.add (object b.freshId)).ids = v.ids ++ [b.freshId] := by
    rw [Inventory.ids, Inventory.add, List.map_append, List.map_singleton, hid]
    rfl
  refine ⟨h.tabulates.place ?_, n + 1, by omega, ?_, fun k hk ↦ ?_⟩
  · rwa [hid, hfresh]
  · rw [← nthId_succ, ← hfresh]
    rfl
  · rw [hids, List.mem_append, List.mem_singleton, hfresh]
    rcases Nat.lt_succ_iff_lt_or_eq.1 hk with hk | rfl
    · exact .inl (htaken k hk)
    · exact .inr rfl

/-- Each edit does what is meant. -/
theorem IsAt.apply (h : b.IsAt v) (hroom : v.objects.length < 2 ^ 63) (edit : Edit) :
    ∃ v', Inventory.Step v edit (b.apply edit).1 v' ∧ (b.apply edit).2.IsAt v' := by
  cases hmake : edit.make? with
  | some object =>
      rw [apply_of_make? b hmake]
      exact ⟨_, .make hmake (h.freshId_notMem hroom), h.add hroom (id_of_make? hmake _)⟩
  | none =>
      cases edit with
      | newClass | newInstance | newPrimitiveArray | newObjectArray => cases hmake
      | insert o =>
          by_cases hold : o.id ∈ v.ids
          · refine ⟨v, ?_⟩
            simp only [Builder.apply, h.tabulates.insert_eq_error hold]
            exact ⟨.refuse hold, h⟩
          · refine ⟨v.add o, ?_⟩
            simp only [Builder.apply, h.tabulates.insert_eq_ok hold]
            have hstep := Inventory.Step.insert hold
            exact ⟨hstep, h.of_nextId_eq (h.tabulates.place hold) rfl hstep.ids_subset⟩
      | root r =>
          have hstep := Inventory.Step.root (v := v) r
          exact ⟨_, hstep, h.of_nextId_eq (h.tabulates.addRoot r) rfl hstep.ids_subset⟩
      | setFields id fields =>
          rcases h.tabulates.setFields_cases id fields with
            ⟨slot, i, g, hslot, rfl, hset, htabulates⟩ | ⟨hlack, hset⟩
          · refine ⟨v.setFields slot i fields, ?_⟩
            simp only [Builder.apply, hset]
            have hstep : Inventory.Step v (.setFields i.id fields) (.ok none) _ :=
              .setFields hslot
            exact ⟨hstep, h.of_nextId_eq htabulates rfl hstep.ids_subset⟩
          · refine ⟨v, ?_⟩
            simp only [Builder.apply, hset]
            exact ⟨.lack hlack, h⟩

end

/-! ## Whole histories -/

/-- An edit that fails changes nothing, and one that makes an object is not refused. -/
structure IsSafe (b : Builder) (edit : Edit) : Prop where
  unchanged : ∀ fault, (b.apply edit).1 = .error fault → (b.apply edit).2.graph = b.graph
  admitted : ∀ object, edit.make? = some object →
    b.graph.insert (object b.freshId) = .ok (b.apply edit).2.graph
  -- The count of ids goes on without wrapping.
  toNat_lt : b.freshId.toNat + 1 < 2 ^ 64

theorem IsAt.isSafe {b : Builder} {v : Inventory} (h : b.IsAt v)
    (hroom : v.objects.length < 2 ^ 63) (edit : Edit) : b.IsSafe edit := by
  refine ⟨fun fault hfault ↦ ?_, fun object hmake ↦ ?_, h.toNat_freshId_lt hroom⟩
  · cases edit with
    | newClass | newInstance | newPrimitiveArray | newObjectArray | root => cases hfault
    | insert o =>
        cases hinsert : b.graph.insert o with
        | ok g => simp [Builder.apply, hinsert] at hfault
        | error fault => simp [Builder.apply, hinsert]
    | setFields id fields =>
        cases hset : b.graph.setFields id fields with
        | ok g => simp [Builder.apply, hset] at hfault
        | error fault => simp [Builder.apply, hset]
  · rw [apply_of_make? b hmake]
    apply h.tabulates.insert_eq_ok
    rw [id_of_make? hmake]
    exact h.freshId_notMem hroom

def answers (b : Builder) : List Edit → List Edit.Answer
  | [] => []
  | edit :: edits => (b.apply edit).1 :: answers (b.apply edit).2 edits

theorem IsAt.run {b : Builder} {v : Inventory} (h : b.IsAt v) (edits : List Edit)
    (hroom : v.objects.length + edits.length ≤ 2 ^ 63) :
    ∃ v', Inventory.Account v edits (b.answers edits) v' ∧ (b.run edits).IsAt v' ∧
      ∀ earlier edit later, edits = earlier ++ edit :: later → (b.run earlier).IsSafe edit := by
  induction edits generalizing b v with
  | nil => exact ⟨v, .nil, h, fun earlier edit later heq ↦ by simp at heq⟩
  | cons edit edits ih =>
      rw [List.length_cons] at hroom
      obtain ⟨next, hstep, hnext⟩ := h.apply (by omega) edit
      have hlength := hstep.length_le
      obtain ⟨last, haccount, hlast, hsafe⟩ := ih hnext (by omega)
      refine ⟨last, .cons hstep haccount, hlast, ?_⟩
      rintro (_ | ⟨first, earlier⟩) other later heq
      · obtain ⟨rfl, -⟩ := List.cons.inj heq
        exact h.isSafe (by omega) edit
      · obtain ⟨rfl, hedits⟩ := List.cons.inj heq
        exact hsafe earlier other later hedits

/-- A history of edits, the failing ones among them, leaves a graph whose tables tell what has been
put in; ids that are handed out are new, and what fails leaves the graph as it was. -/
theorem run_tabulates_account (edits : List Edit) (hfew : edits.length < 2 ^ 63) :
    ∃ v, Inventory.Account {} edits (answers {} edits) v ∧ (run {} edits).graph.Tabulates v ∧
      ∀ earlier edit later, edits = earlier ++ edit :: later → (run {} earlier).IsSafe edit := by
  obtain ⟨v, haccount, hlast, hsafe⟩ := isAt_empty.run edits (by simpa using hfew.le)
  exact ⟨v, haccount, hlast.tabulates, hsafe⟩

/-- Ids that run into those handed out, a name twice, a cycle that is closed, and failures. -/
def mixedEdits : List Edit :=
  [.insert (.ofInstance ⟨0x700001000, 1, []⟩), .newClass "A" none [("s", .object none)],
    .insert (.ofClass ⟨0x700001001, "B", none, []⟩), .newClass "A" (some 0x700001001) [],
    .newInstance 0x700001001 [],
    .setFields 0x700001003 [⟨0x700001001, "self", .object (some 0x700001003)⟩],
    .setFields 0x700001001 [], .root ⟨0, .unknown⟩]

theorem mixedEdits_accounted : mixedEdits.length < 2 ^ 63 ∧
    ∃ v, Inventory.Account {} mixedEdits (answers {} mixedEdits) v ∧
      (run {} mixedEdits).graph.Tabulates v ∧
        ∀ earlier edit later, mixedEdits = earlier ++ edit :: later →
          (run {} earlier).IsSafe edit :=
  ⟨by decide, run_tabulates_account mixedEdits (by decide)⟩

end Builder

end HeapSentry.Heap
