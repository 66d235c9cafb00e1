import HeapSentry.Proofs.Leak.Course

/-!
# The rounds of a search

In each round an entry is taken from its queue and served.  An object joins either queue at most
once, and it is expanded at most once: an entry that is found stale is the second one of an object
that has been expanded.  Plain ways come first, and once an object met through a library has been
expanded no other ones are left.
-/

namespace HeapSentry.Leak

open Heap Matcher

namespace Search

variable {ms : List Matcher} {g : Graph} {s s' rest : Search} {wanted : Std.HashSet ObjectId}
  {ways : ObjectId → List Reference} {front : List Reference} {id : ObjectId} {v : Visit}

/-! ## Rounds -/

/-- A round: the search before it, the entry that is taken, the search without this entry, and the
search after the entry has been served. -/
structure Round where
  before : Search
  id : ObjectId
  rest : Search
  after : Search

namespace Round

/-- What joins the plain queue; entries join at the end, and none leaves while one is served. -/
def joinsPlain (r : Round) : List ObjectId :=
  r.after.plain.toList.drop r.rest.plain.toList.length

def joinsDeferred (r : Round) : List ObjectId :=
  r.after.deferred.toList.drop r.rest.deferred.toList.length

/-- Whether the entry's object is expanded; otherwise the entry is skipped. -/
def expands (r : Round) : Bool := r.rest.settles r.id

def expanded (r : Round) : List ObjectId := if r.expands then [r.id] else []

/-- Whether the entry's object is expanded as one met through a library. -/
def expandsDeferred (r : Round) : Bool :=
  r.rest.visits[r.id]?.any fun v ↦ !v.done && v.library.isSome

end Round

/-- The rounds that lead from one state of a search to another.  A search goes on as long as it has
not found all it wants and something waits. -/
inductive Runs (g : Graph) (ms : List Matcher) (wanted : Std.HashSet ObjectId) :
    Search → List Round → Search → Prop where
  | nil {s : Search} : Runs g ms wanted s [] s
  | cons {s s' rest : Search} {id : ObjectId} {rounds : List Round}
      (lacks : s.found.size < wanted.size) (taken : s.next? = some (id, rest))
      (later : Runs g ms wanted (rest.serve g ms wanted id) rounds s') :
      Runs g ms wanted s (⟨s, id, rest, rest.serve g ms wanted id⟩ :: rounds) s'

/-- Whether a search has found all it wants or has nothing left to serve. -/
def HasEnded (wanted : Std.HashSet ObjectId) (s : Search) : Prop :=
  wanted.size ≤ s.found.size ∨ s.next? = none

variable {r : Round} {rounds rounds' earlier later : List Round}

theorem runs_append : Runs g ms wanted s (rounds ++ rounds') s' ↔
    ∃ between, Runs g ms wanted s rounds between ∧ Runs g ms wanted between rounds' s' := by
  constructor
  · intro h
    induction rounds generalizing s with
    | nil => exact ⟨s, .nil, h⟩
    | cons r rounds ih =>
        cases h with
        | cons lacks taken later =>
            obtain ⟨between, hrounds, hrounds'⟩ := ih later
            exact ⟨between, .cons lacks taken hrounds, hrounds'⟩
  · rintro ⟨between, hrounds, hrounds'⟩
    induction hrounds with
    | nil => exact hrounds'
    | cons lacks taken _ ih => exact .cons lacks taken (ih hrounds')

/-- Rounds leave no choice, so that all others are the first ones of those after which a search has
ended. -/
theorem Runs.isPrefix (h : Runs g ms wanted s rounds s') (hended : s'.HasEnded wanted)
    {t : Search} (h' : Runs g ms wanted s rounds' t) : rounds' <+: rounds := by
  induction h' generalizing rounds with
  | nil => exact List.nil_prefix
  | cons lacks taken _ ih =>
      cases h with
      | nil =>
          rcases hended with hsize | hnone
          · omega
          · cases hnone.symm.trans taken
      | cons _ taken' later =>
          obtain ⟨rfl, rfl⟩ := Prod.mk.inj (Option.some.inj (taken'.symm.trans taken))
          exact List.cons_prefix_cons.2 ⟨rfl, ih later⟩

theorem exists_runs (g : Graph) (ms : List Matcher) (wanted : Std.HashSet ObjectId) (fuel : ℕ)
    (s : Search) : ∃ rounds, Runs g ms wanted s rounds (s.run g ms wanted fuel) := by
  induction fuel generalizing s with
  | zero => exact ⟨[], .nil⟩
  | succ fuel ih =>
      rw [Search.run]
      split
      next lacks =>
        split
        · exact ⟨[], .nil⟩
        next id rest taken =>
          obtain ⟨rounds, hrounds⟩ := ih (rest.serve g ms wanted id)
          exact ⟨_, .cons lacks taken hrounds⟩
      next => exact ⟨[], .nil⟩

theorem Runs.length_le (h : Runs g ms wanted s rounds s') :
    rounds.length + s'.remaining g ≤ s.remaining g := by
  induction h with
  | nil => simp
  | cons _ taken _ ih =>
      have hlt := remaining_serve_lt ms g wanted taken
      rw [List.length_cons]
      omega

theorem Runs.traversal (h : Runs g ms wanted s rounds s')
    (ht : Traversal ms g s ways wanted front []) :
    ∃ ways' front', Traversal ms g s' ways' wanted front' [] := by
  induction h generalizing ways front with
  | nil => exact ⟨ways, front, ht⟩
  | cons _ taken _ ih =>
      obtain ⟨ways', front', ht', -⟩ := ht.serve taken
      exact ih ht'

/-! ## What has joined the queues -/

/-- The objects that have joined the queues so far, and those that have been expanded.  A way that is
plain stays so, which is why nothing joins the plain queue again. -/
structure Joined (plain deferred expanded : List ObjectId)
    (visits : Std.HashMap ObjectId Visit) : Prop where
  plain_nodup : plain.Nodup
  deferred_nodup : deferred.Nodup
  expanded_nodup : expanded.Nodup
  met_of_plain : ∀ id ∈ plain, ∃ v, visits[id]? = some v ∧ v.library = none
  met_of_deferred : ∀ id ∈ deferred, id ∈ visits
  mem_expanded : ∀ id, id ∈ expanded ↔ isDone visits id = true

variable {plain deferred expanded : List ObjectId}

theorem isDone_start (g : Graph) (id : ObjectId) : isDone (start g).visits id = false := by
  rw [isDone, start_visits]
  cases g.sourceKind? id <;> rfl

theorem joined_start (g : Graph) :
    Joined (start g).plain.toList (start g).deferred.toList [] (start g).visits where
  plain_nodup := (entered_start g).plain_nodup
  deferred_nodup := (queued_start g).deferred_nodup
  expanded_nodup := List.nodup_nil
  met_of_plain id hmem := by
    obtain ⟨v, hv, -, hlib⟩ := (queued_start g).mem_plain hmem
    exact ⟨v, hv, hlib⟩
  met_of_deferred id hmem := by
    obtain ⟨v, hv, -⟩ := (queued_start g).mem_deferred hmem
    exact mem_visits hv
  mem_expanded id := by simp [isDone_start]

/-- Entries have joined the queues, and none has left. -/
structure Joins (s s' : Search) (plain deferred : List ObjectId) : Prop where
  plain_eq : s'.plain.toList = s.plain.toList ++ plain
  deferred_eq : s'.deferred.toList = s.deferred.toList ++ deferred

theorem Joins.refl (s : Search) : Joins s s [] [] := ⟨by simp, by simp⟩

theorem Joins.trans {s'' : Search} {plain' deferred' : List ObjectId}
    (h : Joins s s' plain deferred) (h' : Joins s' s'' plain' deferred') :
    Joins s s'' (plain ++ plain') (deferred ++ deferred') where
  plain_eq := by rw [h'.plain_eq, h.plain_eq, List.append_assoc]
  deferred_eq := by rw [h'.deferred_eq, h.deferred_eq, List.append_assoc]

theorem joins_meet (s : Search) (id : ObjectId) (v : Visit) :
    Joins s (s.meet id v) (if v.library = none then [id] else [])
      (if v.library = none then [] else [id]) := by
  constructor
  · rw [toList_plain_meet]
    split <;> simp
  · rw [toList_deferred_meet]
    split <;> simp

/-! An object that is met joins a queue that it has not joined before: it has joined neither if it
has not been met, and only the deferred one if a plain way replaces its way through a library. -/

theorem Joined.notMem_plain {library : Option String} (h : Joined plain deferred expanded s.visits)
    (haccepts : s.accepts id library = true) : id ∉ plain := by
  intro hmem
  obtain ⟨known, hknown, hnone⟩ := h.met_of_plain id hmem
  simpa [hnone] using (accepts_iff.1 haccepts known hknown).2.1

theorem Joined.notMem_deferred {library : Option String} (h : Joined plain deferred expanded s.visits)
    (haccepts : s.accepts id library = true) (hlib : library ≠ none) : id ∉ deferred := by
  intro hmem
  have hmet := Std.HashMap.mem_iff_isSome_getElem?.1 (h.met_of_deferred id hmem)
  obtain ⟨known, hknown⟩ := Option.isSome_iff_exists.1 hmet
  exact hlib (accepts_iff.1 haccepts known hknown).2.2

theorem Joined.meet (h : Joined plain deferred expanded s.visits)
    (haccepts : s.accepts id v.library = true) (hwaits : v.done = false) :
    Joined (plain ++ if v.library = none then [id] else [])
      (deferred ++ if v.library = none then [] else [id]) expanded (s.meet id v).visits := by
  have hplain := h.notMem_plain haccepts
  have hdeferred := h.notMem_deferred haccepts
  refine ⟨?_, ?_, h.expanded_nodup, fun other hmem ↦ ?_, fun other hmem ↦ ?_, ?_⟩
  · split
    · exact h.plain_nodup.append (List.nodup_singleton id) (by simpa using hplain)
    · simpa using h.plain_nodup
  · split
    · simpa using h.deferred_nodup
    next hlib =>
      exact h.deferred_nodup.append (List.nodup_singleton id) (by simpa using hdeferred hlib)
  · rw [visits_meet]
    simp only [getElem?_insert_eq_some]
    rcases List.mem_append.1 hmem with hmem | hmem
    · obtain ⟨u, hu, hlib⟩ := h.met_of_plain other hmem
      have hid : other ≠ id := fun heq ↦ hplain (heq ▸ hmem)
      exact ⟨u, .inr ⟨hid, hu⟩, hlib⟩
    · split at hmem
      next hlib => exact ⟨v, .inl ⟨List.mem_singleton.1 hmem, rfl⟩, hlib⟩
      next => simp at hmem
  · rw [visits_meet, Std.HashMap.mem_insert]
    rcases List.mem_append.1 hmem with hmem | hmem
    · exact .inr (h.met_of_deferred other hmem)
    · left
      split at hmem <;> simp_all
  · rw [isDone_meet haccepts hwaits]
    exact h.mem_expanded

theorem Joined.follow (h : Joined plain deferred expanded s.visits) (g : Graph) (ms : List Matcher)
    (v : Visit) (r : Reference) :
    ∃ plain' deferred', Joins s (s.follow g ms v r) plain' deferred' ∧
      Joined (plain ++ plain') (deferred ++ deferred') expanded (s.follow g ms v r).visits := by
  have hstays : ∃ plain' deferred', Joins s s plain' deferred' ∧
      Joined (plain ++ plain') (deferred ++ deferred') expanded s.visits :=
    ⟨[], [], .refl s, by simpa using h⟩
  by_cases hr : standingOf ms g r = .ignored
  · rw [follow_of_ignored hr]
    exact hstays
  · rw [follow_of_ne_ignored hr, Search.reach]
    split
    next haccepts => exact ⟨_, _, joins_meet .., h.meet haccepts rfl⟩
    next => exact hstays

theorem Joined.foldl_follow (h : Joined plain deferred expanded s.visits) (g : Graph) (ms : List Matcher)
    (v : Visit) (pending : List Reference) :
    ∃ plain' deferred', Joins s (pending.foldl (Search.follow g ms v) s) plain' deferred' ∧
      Joined (plain ++ plain') (deferred ++ deferred') expanded
        (pending.foldl (Search.follow g ms v) s).visits := by
  induction pending generalizing s plain deferred with
  | nil => exact ⟨[], [], .refl s, by simpa using h⟩
  | cons r pending ih =>
      obtain ⟨plain', deferred', hjoins, h'⟩ := h.follow g ms v r
      obtain ⟨plain'', deferred'', hjoins', h''⟩ := ih h'
      refine ⟨plain' ++ plain'', deferred' ++ deferred'', hjoins.trans hjoins', ?_⟩
      rw [← List.append_assoc, ← List.append_assoc]
      exact h''

theorem Joined.settle (h : Joined plain deferred expanded s.visits) (hv : s.visits[id]? = some v)
    (hwaits : v.done = false) :
    Joined plain deferred (expanded ++ [id]) (s.settle wanted id v).visits := by
  have hnew : id ∉ expanded := by simp [h.mem_expanded, isDone, hv, hwaits]
  refine ⟨h.plain_nodup, h.deferred_nodup,
    h.expanded_nodup.append (List.nodup_singleton id) (by simpa using hnew), fun other hmem ↦ ?_,
    fun other hmem ↦ ?_, fun other ↦ ?_⟩
  · obtain ⟨u, hu, hlib⟩ := h.met_of_plain other hmem
    by_cases hid : other = id
    · subst hid
      obtain rfl : v = u := Option.some.inj (hv.symm.trans hu)
      exact ⟨_, getElem?_insert_eq_some.2 (.inl ⟨rfl, rfl⟩), hlib⟩
    · exact ⟨u, getElem?_insert_eq_some.2 (.inr ⟨hid, hu⟩), hlib⟩
  · exact Std.HashMap.mem_insert.2 (.inr (h.met_of_deferred other hmem))
  · have hdone : isDone (s.settle wanted id v).visits other =
        if other = id then true else isDone s.visits other := isDone_insert
    rw [hdone, List.mem_append, List.mem_singleton, h.mem_expanded]
    by_cases hid : other = id <;> simp [hid]

theorem serve_of_not_settles (g : Graph) (ms : List Matcher) (wanted : Std.HashSet ObjectId)
    (h : s.settles id = false) : s.serve g ms wanted id = s := by
  unfold Search.serve
  cases hv : s.visits[id]? with
  | none => rfl
  | some v =>
      have hdone : v.done = true := by simpa [settles, hv] using h
      simp [hdone]

theorem serve_of_settles (g : Graph) (ms : List Matcher) (wanted : Std.HashSet ObjectId)
    (h : s.settles id = true) : ∃ v, s.visits[id]? = some v ∧ v.done = false ∧
      s.serve g ms wanted id = s.expand g ms wanted id v := by
  unfold Search.serve
  cases hv : s.visits[id]? with
  | none => simp [settles, hv] at h
  | some v =>
      have hwaits : v.done = false := by simpa [settles, hv] using h
      exact ⟨v, rfl, hwaits, by simp [hwaits]⟩

theorem Joined.serve (h : Joined plain deferred expanded s.visits) (g : Graph) (ms : List Matcher)
    (wanted : Std.HashSet ObjectId) (id : ObjectId) :
    ∃ plain' deferred', Joins s (s.serve g ms wanted id) plain' deferred' ∧
      Joined (plain ++ plain') (deferred ++ deferred')
        (expanded ++ if s.settles id then [id] else []) (s.serve g ms wanted id).visits := by
  cases hsettles : s.settles id with
  | false =>
      rw [serve_of_not_settles g ms wanted hsettles]
      exact ⟨[], [], .refl s, by simpa using h⟩
  | true =>
      obtain ⟨v, hv, hwaits, hserve⟩ := serve_of_settles g ms wanted hsettles
      obtain ⟨plain', deferred', hjoins, h'⟩ :=
        (h.settle hv hwaits).foldl_follow g ms v (g.references id)
      rw [hserve]
      exact ⟨plain', deferred', ⟨hjoins.plain_eq, hjoins.deferred_eq⟩, h'⟩

theorem Joins.drop_eq (h : Joins s s' plain deferred) :
    s'.plain.toList.drop s.plain.toList.length = plain ∧
      s'.deferred.toList.drop s.deferred.toList.length = deferred := by
  rw [h.plain_eq, h.deferred_eq, List.drop_left, List.drop_left]
  exact ⟨rfl, rfl⟩

theorem Joined.round (h : Joined plain deferred expanded s.visits) (g : Graph) (ms : List Matcher)
    (wanted : Std.HashSet ObjectId) (taken : s.next? = some (id, rest)) :
    let r : Round := ⟨s, id, rest, rest.serve g ms wanted id⟩
    Joins r.rest r.after r.joinsPlain r.joinsDeferred ∧
      Joined (plain ++ r.joinsPlain) (deferred ++ r.joinsDeferred) (expanded ++ r.expanded)
        r.after.visits := by
  rw [← (next?_eq_some taken).1] at h
  obtain ⟨plain', deferred', hjoins, hjoined⟩ := h.serve g ms wanted id
  obtain ⟨hplain, hdeferred⟩ := hjoins.drop_eq
  simp only [Round.joinsPlain, Round.joinsDeferred, Round.expanded, Round.expands, hplain,
    hdeferred]
  exact ⟨hjoins, hjoined⟩

theorem Runs.joined (h : Runs g ms wanted s rounds s')
    (hs : Joined plain deferred expanded s.visits) :
    Joined (plain ++ rounds.flatMap Round.joinsPlain)
      (deferred ++ rounds.flatMap Round.joinsDeferred)
      (expanded ++ rounds.flatMap Round.expanded) s'.visits := by
  induction h generalizing plain deferred expanded with
  | nil => simpa using hs
  | cons _ taken _ ih =>
      have hlater := ih (hs.round g ms wanted taken).2
      simp only [List.append_assoc] at hlater
      simpa only [List.flatMap_cons] using hlater

/-! ## The end of the plain ways -/

theorem plain_follow_of_library (hlib : v.library.isSome) (s : Search) (r : Reference) :
    (s.follow g ms v r).plain.toList = s.plain.toList := by
  by_cases hr : standingOf ms g r = .ignored
  · rw [follow_of_ignored hr]
  · have hnew : (v.library <|> (standingOf ms g r).library?) ≠ none := by
      obtain ⟨description, hdescription⟩ := Option.isSome_iff_exists.1 hlib
      simp [hdescription]
    rw [follow_of_ne_ignored hr, Search.reach]
    split
    · rw [toList_plain_meet, if_neg hnew]
    · rfl

theorem plain_foldl_follow_of_library (hlib : v.library.isSome) (pending : List Reference)
    (s : Search) :
    (pending.foldl (Search.follow g ms v) s).plain.toList = s.plain.toList := by
  induction pending generalizing s with
  | nil => rfl
  | cons r pending ih => rw [List.foldl_cons, ih, plain_follow_of_library hlib]

/-- While nothing waits on a plain way, what is served has been met through a library, and so is
what it leads to. -/
theorem Queued.plain_serve_eq_nil (hq : Queued s) (g : Graph) (ms : List Matcher)
    (wanted : Std.HashSet ObjectId) (hplain : s.plain.toList = [])
    (taken : s.next? = some (id, rest)) : (rest.serve g ms wanted id).plain.toList = [] := by
  have hrest : rest.plain.toList = [] := by
    have hsublist := (sublist_of_next? taken).1
    rw [hplain] at hsublist
    exact List.sublist_nil.1 hsublist
  cases hsettles : rest.settles id with
  | false => rwa [serve_of_not_settles g ms wanted hsettles]
  | true =>
      obtain ⟨v, hv, hwaits, hserve⟩ := serve_of_settles g ms wanted hsettles
      have hlib : v.library.isSome := by
        rw [Option.isSome_iff_ne_none]
        intro hnone
        rw [(next?_eq_some taken).1] at hv
        simpa [hplain] using hq.plain_waits hv hwaits hnone
      rw [hserve, Search.expand, plain_foldl_follow_of_library hlib]
      exact hrest

theorem Runs.plain_eq_nil (h : Runs g ms wanted s rounds s')
    (ht : Traversal ms g s ways wanted front []) (hplain : s.plain.toList = []) :
    ∀ r ∈ rounds, r.before.plain.toList = [] ∧ r.after.plain.toList = [] := by
  induction h generalizing ways front with
  | nil => simp
  | cons _ taken _ ih =>
      obtain ⟨ways', front', ht', -⟩ := ht.serve taken
      have hafter := ht.queued.plain_serve_eq_nil g ms wanted hplain taken
      exact List.forall_mem_cons.2 ⟨⟨hplain, hafter⟩, ih ht' hafter⟩

theorem Queued.plain_eq_nil_of_library (hq : Queued s) (taken : s.next? = some (id, rest))
    (hv : s.visits[id]? = some v) (hlib : v.library.isSome) : s.plain.toList = [] := by
  obtain ⟨-, -, ⟨hplain, -⟩ | ⟨hplain, -⟩⟩ := next?_eq_some taken
  · have hmem : id ∈ s.plain.toList := by simp [hplain]
    obtain ⟨u, hu, -, hnone⟩ := hq.mem_plain hmem
    obtain rfl : v = u := Option.some.inj (hv.symm.trans hu)
    simp [hnone] at hlib
  · exact hplain

/-! ## All rounds -/

/-- What can be said of a round by those before and after it. -/
structure Round.IsOrderly (earlier : List Round) (r : Round) (later : List Round) : Prop where
  plain_eq : r.after.plain.toList = r.rest.plain.toList ++ r.joinsPlain
  deferred_eq : r.after.deferred.toList = r.rest.deferred.toList ++ r.joinsDeferred
  met : r.id ∈ r.rest.visits
  skips_iff : r.expands = false ↔ r.id ∈ earlier.flatMap Round.expanded
  skips : r.expands = false → r.after = r.rest
  plain_empty : r.expandsDeferred = true →
    ∀ r' ∈ r :: later, r'.before.plain.toList = [] ∧ r'.after.plain.toList = []

theorem Runs.isOrderly (h : Runs g ms wanted (start g) (earlier ++ r :: later) s') :
    r.IsOrderly earlier later := by
  obtain ⟨s, hearlier, hlater⟩ := runs_append.1 h
  obtain ⟨ways, front, ht⟩ := hearlier.traversal (traversal_start ms g wanted)
  have hjoined := hearlier.joined (joined_start g)
  cases hlater with
  | @cons _ _ rest id _ lacks taken hlater =>
      obtain ⟨v, hv⟩ := ht.queued.met_of_next? taken
      have hvisits := (next?_eq_some taken).1
      have hv' : rest.visits[id]? = some v := hvisits ▸ hv
      have hjoins := (hjoined.round g ms wanted taken).1
      refine ⟨hjoins.plain_eq, hjoins.deferred_eq, mem_visits hv', ?_,
        serve_of_not_settles g ms wanted, fun hdeferred ↦ ?_⟩
      · -- What has been met is stale if it is done, hence if it has been expanded.
        have hmem := hjoined.mem_expanded id
        rw [List.nil_append] at hmem
        rw [hmem]
        simp [Round.expands, settles, isDone, hv, hv']
      · obtain ⟨-, hlib⟩ : v.done = false ∧ v.library.isSome := by
          simpa [Round.expandsDeferred, hv'] using hdeferred
        have hplain := ht.queued.plain_eq_nil_of_library taken hv hlib
        exact Runs.plain_eq_nil (.cons lacks taken hlater) ht hplain

/-- A search ends after a bounded number of rounds, with which all others begin.  No object joins a
queue twice or is expanded twice; what is skipped has been expanded before; and once an object met
through a library is expanded, nothing waits on a plain way any more. -/
theorem ofGraph_queues_each_once (g : Graph) (ms : List Matcher)
    (wanted : Std.HashSet ObjectId) :
    ∃ rounds, Runs g ms wanted (start g) rounds (ofGraph g ms wanted) ∧
      (ofGraph g ms wanted).HasEnded wanted ∧
      (∀ rounds' s, Runs g ms wanted (start g) rounds' s → rounds' <+: rounds) ∧
      rounds.length ≤ entryBound g ∧
      ((start g).plain.toList ++ rounds.flatMap Round.joinsPlain).Nodup ∧
      ((start g).deferred.toList ++ rounds.flatMap Round.joinsDeferred).Nodup ∧
      (rounds.flatMap Round.expanded).Nodup ∧
      ∀ earlier r later, rounds = earlier ++ r :: later → r.IsOrderly earlier later := by
  obtain ⟨rounds, hruns⟩ := exists_runs g ms wanted (entryBound g + 1) (start g)
  have hended : (ofGraph g ms wanted).HasEnded wanted :=
    run_ends ms wanted (entryBound g + 1) (start g) (Nat.lt_succ_of_le (remaining_start_le g))
  have hlength := hruns.length_le
  have hbound := remaining_start_le g
  have hjoined := hruns.joined (joined_start g)
  refine ⟨rounds, hruns, hended, fun rounds' s h' ↦ hruns.isPrefix hended h', by omega,
    hjoined.plain_nodup, hjoined.deferred_nodup, hjoined.expanded_nodup, ?_⟩
  rintro earlier r later rfl
  exact hruns.isOrderly

end Search

end HeapSentry.Leak
