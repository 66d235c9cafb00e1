import HeapSentry.Heap.Builder
import HeapSentry.Proofs.Leak.Grouping
import HeapSentry.Proofs.Leak.Outcome
import HeapSentry.Proofs.Results

/-!
# The members of findings

Each object that a search has found becomes a member, whose trace renders the way to the object.
-/

namespace HeapSentry.Leak

open Heap Matcher

/-- A hop tells of a reference by the names of the classes. -/
structure Hop.Renders (g : Graph) (r : Reference) (hop : Hop) : Prop where
  originClass : g.className? r.source = some hop.originClass
  name : hop.name = r.name
  kind : hop.kind = r.kind
  declaringClass : hop.declaringClass = (r.declaringClass >>= g.class?).map Heap.Class.name

/-- The objects of candidates, as a search wants them. -/
abbrev wantedOf (candidates : List Candidate) : Std.HashSet ObjectId :=
  .ofList (candidates.map Candidate.object)

/-- The members that the objects found become, in order of discovery. -/
def discovered (g : Graph) (candidates : List Candidate) (ms : List Matcher) :
    Except Fault (List Member) :=
  let s := searchFor g candidates ms
  s.found.toList.mapM (Member.ofSearch g s candidates)

/-- What a member tells is true of the way to its object. -/
structure Member.Tells (ms : List Matcher) (g : Graph) (s : Search)
    (ways : ObjectId → List Reference) (m : Member) : Prop where
  way : s.way m.object = (m.trace.root, ways m.object)
  library : m.library = firstLibrary ms g (ways m.object)
  path : List.Forall₂ (Hop.Renders g) (ways m.object) m.trace.path
  chain : ∃ source, Search.IsChain ms g m.trace.root source (ways m.object) m.object

section

variable {ms : List Matcher} {g : Graph} {s : Search} {ways : ObjectId → List Reference}
  {wanted : Std.HashSet ObjectId} {candidates : List Candidate} {id : ObjectId}

theorem classNameOf_eq_ok_iff {name : String} :
    classNameOf g id = .ok name ↔ g.className? id = some name := by
  unfold classNameOf
  split <;> simp_all

theorem Hop.renders_of_ofReference {r : Reference} {hop : Hop}
    (h : Hop.ofReference g r = .ok hop) : hop.Renders g r := by
  obtain ⟨name, hname, heq⟩ := bind_eq_ok_iff.1 h
  obtain rfl := Except.ok.inj heq
  exact ⟨classNameOf_eq_ok_iff.1 hname, rfl, rfl, rfl⟩

theorem Leaking.object_of_ofCandidate {c : Candidate} {leaking : Leaking}
    (h : Leaking.ofCandidate g c = .ok leaking) : leaking.object = c.object := by
  unfold Leaking.ofCandidate at h
  split at h
  · simp at h
  · obtain ⟨name, -, heq⟩ := bind_eq_ok_iff.1 h
    obtain rfl := Except.ok.inj heq
    rfl

theorem Trace.of_ofSearch {c : Candidate} {trace : Trace} (h : Trace.ofSearch g s c = .ok trace) :
    trace.root = (s.way c.object).1 ∧
      List.Forall₂ (Hop.Renders g) (s.way c.object).2 trace.path ∧
      trace.leaking.object = c.object := by
  unfold Trace.ofSearch at h
  obtain ⟨path, hpath, h⟩ := bind_eq_ok_iff.1 h
  obtain ⟨leaking, hleaking, heq⟩ := bind_eq_ok_iff.1 h
  obtain rfl := Except.ok.inj heq
  refine ⟨rfl, ?_, Leaking.object_of_ofCandidate hleaking⟩
  exact (mapM_eq_ok_iff.1 hpath).imp fun _ _ ↦ Hop.renders_of_ofReference

theorem Member.tells_of_ofSearch (ho : Search.Outcome ms g s ways wanted) (hid : id ∈ s.found)
    {m : Member} (h : Member.ofSearch g s candidates id = .ok m) :
    m.object = id ∧ m.Tells ms g s ways := by
  obtain ⟨-, v, hv, -⟩ := ho.found.mem_iff.1 hid
  unfold Member.ofSearch at h
  split at h
  · simp at h
  next c hc =>
    obtain ⟨trace, htrace, heq⟩ := bind_eq_ok_iff.1 h
    obtain rfl := Except.ok.inj heq
    obtain ⟨hroot, hpath, hobject⟩ := Trace.of_ofSearch htrace
    have hcandidate : c.object = id := by simpa using List.find?_some hc
    have hway := ho.recorded.way_eq hv
    rw [hcandidate, hway] at hroot hpath
    obtain rfl : trace.leaking.object = id := hobject.trans hcandidate
    refine ⟨rfl, hway.trans (by rw [hroot]), ?_, hpath, ?_⟩
    · simp [hv, ho.recorded.library hv]
    · obtain ⟨source, hchain, -⟩ := ho.recorded.exists_chain hv
      exact ⟨source, hroot ▸ hchain⟩

/-- Findings sort the members that the objects found become, in order of discovery. -/
structure Findings.Sorts (ms : List Matcher) (g : Graph) (candidates : List Candidate)
    (ways : ObjectId → List Reference) (members : List Member) (all : Findings) : Prop where
  outcome : Search.Outcome ms g (searchFor g candidates ms) ways (wantedOf candidates)
  discovered : discovered g candidates ms = .ok members
  objects : members.map Member.object = (searchFor g candidates ms).found.toList
  tells : ∀ m ∈ members, m.Tells ms g (searchFor g candidates ms) ways
  application : all.application = Group.ofMembers (members.filter (·.library.isNone))
  library : all.library = Group.ofMembers (members.filter (·.library.isSome))
  unreachable : all.unreachable = (candidates.map Candidate.object).filter
    (!(searchFor g candidates ms).found.contains ·)

/-- Each member comes from the object that it is about, and tells the truth. -/
theorem forall₂_of_discovered {members : List Member}
    (ho : Search.Outcome ms g (searchFor g candidates ms) ways (wantedOf candidates))
    (h : discovered g candidates ms = .ok members) :
    List.Forall₂ (fun m id ↦
      (Member.ofSearch g (searchFor g candidates ms) candidates m.object = .ok m ∧
        m.Tells ms g (searchFor g candidates ms) ways) ∧ m.object = id)
      members (searchFor g candidates ms).found.toList := by
  have hfound : ∀ id ∈ (searchFor g candidates ms).found.toList,
      id ∈ (searchFor g candidates ms).found := fun _ ↦ Array.mem_toList_iff.1
  refine ((List.forall₂_and_left _ _).2 ⟨hfound, mapM_eq_ok_iff.1 h⟩).flip.imp ?_
  rintro m id ⟨hid, hm⟩
  obtain ⟨rfl, htells⟩ := Member.tells_of_ofSearch ho hid hm
  exact ⟨⟨hm, htells⟩, rfl⟩

theorem exists_sorts {all : Findings} (h : sortCandidates g candidates ms = .ok all) :
    ∃ ways members, all.Sorts ms g candidates ways members := by
  obtain ⟨ways, ho⟩ := Search.exists_outcome ms g (wantedOf candidates)
  unfold sortCandidates at h
  obtain ⟨members, hmembers, heq⟩ := bind_eq_ok_iff.1 h
  obtain rfl := Except.ok.inj heq
  obtain ⟨htells, hobjects⟩ :=
    (List.forall₂_and_left _ _).1 (forall₂_of_discovered ho hmembers)
  refine ⟨ways, members, ho, hmembers, ?_, fun m hm ↦ (htells m hm).2, rfl, rfl, rfl⟩
  rw [← List.forall₂_eq_eq_eq, List.forall₂_map_left_iff]
  exact hobjects

/-! ## Where findings file objects -/

variable {all : Findings} {members : List Member}

theorem findPaths_eq_ok_iff {f : Findings} :
    findPaths g candidates ms = .ok f ↔
      ∃ all, sortCandidates g candidates ms = .ok all ∧ f = all.truncate := by
  rw [findPaths, bind_eq_ok_iff]
  simp only [Except.ok.injEq, eq_comm (b := f)]

theorem mem_searchFor_iff : id ∈ (searchFor g candidates ms).found ↔
    id ∈ candidates.map Candidate.object ∧ g.Reaches (IsFollowed ms g) id := by
  obtain ⟨ways, ho⟩ := Search.exists_outcome ms g (wantedOf candidates)
  have hmem : id ∈ (searchFor g candidates ms).found ↔
      id ∈ wantedOf candidates ∧ g.Reaches (IsFollowed ms g) id := ho.mem_found_iff
  rw [hmem, Std.HashSet.mem_ofList, List.contains_iff_mem]

theorem Findings.Sorts.mem_found_iff (_ : all.Sorts ms g candidates ways members) :
    id ∈ (searchFor g candidates ms).found ↔
      id ∈ candidates.map Candidate.object ∧ g.Reaches (IsFollowed ms g) id :=
  mem_searchFor_iff

theorem Findings.Sorts.mem_found (h : all.Sorts ms g candidates ways members) {m : Member}
    (hm : m ∈ members) : m.object ∈ (searchFor g candidates ms).found := by
  rw [← Array.mem_toList_iff, ← h.objects]
  exact List.mem_map_of_mem hm

/-- Whether a member tells of a library shows whether its object is reached on a plain way. -/
theorem Findings.Sorts.library_eq_none_iff (h : all.Sorts ms g candidates ways members)
    {m : Member} (hm : m ∈ members) :
    m.library = none ↔ g.Reaches (IsPlain ms g) m.object := by
  rw [h.outcome.reaches_plain_iff (h.mem_found hm), (h.tells m hm).library]

/-- The members of one kind have the objects that were found and are of that kind. -/
theorem Findings.Sorts.exists_mem_filter_iff (h : all.Sorts ms g candidates ways members)
    {kind : Member → Bool} {P : ObjectId → Prop} (hkind : ∀ m ∈ members, kind m ↔ P m.object) :
    (∃ m ∈ members.filter kind, m.object = id) ↔
      id ∈ (searchFor g candidates ms).found ∧ P id := by
  constructor
  · rintro ⟨m, hm, rfl⟩
    obtain ⟨hmem, hm⟩ := List.mem_filter.1 hm
    exact ⟨h.mem_found hmem, (hkind m hmem).1 hm⟩
  · rintro ⟨hid, hP⟩
    rw [← Array.mem_toList_iff, ← h.objects] at hid
    obtain ⟨m, hm, rfl⟩ := List.mem_map.1 hid
    exact ⟨m, List.mem_filter.2 ⟨hm, (hkind m hm).2 hP⟩, rfl⟩

end

/-! ## A detour -/

namespace Detour

def node (id : ObjectId) (links : List (String × ObjectId)) : Object :=
  .ofInstance ⟨id, 1, links.map fun (name, target) ↦ ⟨1, name, .object (some target)⟩⟩

def objects : List Object := [
  .ofClass ⟨1, "Node", none, []⟩,
  node 10 [("cache", 11), ("next", 12)],
  node 11 [("next", 14)],
  node 12 [("next", 13)],
  node 13 [("cache", 14), ("weak", 15)],
  node 14 [],
  node 15 []]

/-- Two ways lead from the root to object 14.  The short one enters the cache at once, the long one
at its last reference only. -/
def graph : Graph := (objects.foldl Graph.place .empty).addRoot ⟨10, .jniGlobal⟩

def matchers : List Matcher := [
  ⟨⟨.instanceField, "Node", "cache"⟩, some "cached"⟩,
  ⟨⟨.instanceField, "Node", "weak"⟩, none⟩]

def candidates : List Candidate := [⟨14, "Node", "a"⟩, ⟨15, "Node", "b"⟩, ⟨13, "Node", "c"⟩]

def edge (source : ObjectId) (name : String) (target : ObjectId) : Reference :=
  ⟨source, target, .instanceField, name, some 1⟩

@[simp] theorem source_edge (source : ObjectId) (name : String) (target : ObjectId) :
    (edge source name target).source = source := rfl

@[simp] theorem target_edge (source : ObjectId) (name : String) (target : ObjectId) :
    (edge source name target).target = target := rfl

def hop (name : String) : Hop := ⟨"Node", name, .instanceField, some "Node"⟩

def plainMember : Member :=
  ⟨⟨.jniGlobal, [hop "next", hop "next"], ⟨13, "Node", "INSTANCE", "c"⟩⟩, none⟩

def libraryMember : Member :=
  ⟨⟨.jniGlobal, [hop "next", hop "next", hop "cache"], ⟨14, "Node", "INSTANCE", "a"⟩⟩,
    some "cached"⟩

def plainGroup : Group := ⟨plainMember.signature, plainMember.trace, [13], none⟩

def libraryGroup : Group := ⟨libraryMember.signature, libraryMember.trace, [14], some "cached"⟩

def findings : Findings := ⟨[plainGroup], [libraryGroup], [15]⟩

theorem object?_eq {id : ObjectId} (h : id ∈ [1, 10, 11, 12, 13, 14, 15]) :
    graph.object? id = objects.find? (·.id == id) := by
  simp only [List.mem_cons, List.not_mem_nil, or_false] at h
  rcases h with rfl | rfl | rfl | rfl | rfl | rfl | rfl
  all_goals
    simp [Graph.object?, graph, objects, node, Graph.addRoot, Graph.place, Graph.empty, Object.id,
      Std.HashMap.getElem_insert]

theorem references_eq {id : ObjectId} (h : id ∈ [1, 10, 11, 12, 13, 14, 15]) :
    graph.references id = match id with
      | 10 => [edge 10 "cache" 11, edge 10 "next" 12]
      | 11 => [edge 11 "next" 14]
      | 12 => [edge 12 "next" 13]
      | 13 => [edge 13 "cache" 14, edge 13 "weak" 15]
      | _ => [] := by
  rw [Graph.references, object?_eq h]
  simp only [List.mem_cons, List.not_mem_nil, or_false] at h
  rcases h with rfl | rfl | rfl | rfl | rfl | rfl | rfl <;> rfl

theorem class?_one : graph.class? 1 = some ⟨1, "Node", none, []⟩ := by
  rw [Graph.class?, object?_eq (by simp)]
  rfl

theorem className?_eq {id : ObjectId} (h : id ∈ [1, 10, 11, 12, 13, 14, 15]) :
    graph.className? id = some "Node" := by
  rw [Graph.className?, object?_eq h]
  simp only [List.mem_cons, List.not_mem_nil, or_false] at h
  rcases h with rfl | rfl | rfl | rfl | rfl | rfl | rfl
  · rfl
  all_goals exact congrArg (Option.map Class.name) class?_one

theorem standingOf_edge (source target : ObjectId) (name : String) :
    standingOf matchers graph (edge source name target) =
      if name = "cache" then .library "cached" else if name = "weak" then .ignored
      else .plain := by
  have happlies : ∀ field, Pattern.applies ⟨.instanceField, "Node", field⟩ graph
      (edge source name target) = (name == field) := by
    intro field
    simp [Pattern.applies, edge, class?_one, FieldKind.referenceKind]
  simp only [standingOf, matchers, List.find?_cons, List.find?_nil, happlies]
  by_cases hcache : name = "cache"
  · simp [hcache, standing]
  · by_cases hweak : name = "weak"
    · simp [hweak, standing]
    · simp [hcache, hweak, beq_eq_false_iff_ne.2 hcache, beq_eq_false_iff_ne.2 hweak]

theorem entryBound_eq : Search.entryBound graph = 7 := by
  have hperm : graph.slots.keys.Perm [1, 10, 11, 12, 13, 14, 15] := by
    refine (List.perm_ext_iff_of_nodup Std.HashMap.nodup_keys (by decide)).2 fun id ↦ ?_
    rw [Std.HashMap.mem_keys]
    simp [graph, objects, node, Graph.addRoot, Graph.place, Graph.empty, Object.id]
    grind
  rw [Search.entryBound, (hperm.flatMap_right _).length_eq]
  simp [references_eq]
  rfl

theorem start_eq : Search.start graph = Search.meet {} 10 ⟨none, .jniGlobal, none, false⟩ := by
  have hroots : graph.roots = #[⟨10, .jniGlobal⟩] := rfl
  have hobject : (graph.object? 10).isSome := by
    rw [object?_eq (by simp)]
    rfl
  rw [Search.start, hroots]
  simp [Search.enter, Option.isSome_iff_ne_none.1 hobject]

/-- The plain references are followed first, so that 14 is met from 13 while 11 is still waiting. -/
theorem searchFor_eq :
    (searchFor graph candidates matchers).found = #[13, 14] ∧
    (searchFor graph candidates matchers).way 13 =
      (.jniGlobal, [edge 10 "next" 12, edge 12 "next" 13]) ∧
    (searchFor graph candidates matchers).way 14 =
      (.jniGlobal, [edge 10 "next" 12, edge 12 "next" 13, edge 13 "cache" 14]) ∧
    (searchFor graph candidates matchers).visits[(13 : ObjectId)]?.bind Visit.library = none ∧
    (searchFor graph candidates matchers).visits[(14 : ObjectId)]?.bind Visit.library =
      some "cached" := by
  have hwanted : (Std.HashSet.ofList [(14 : ObjectId), 15, 13]).size = 3 := by
    rw [Std.HashSet.size_ofList (by simp)]
    rfl
  rw [searchFor, Search.ofGraph, entryBound_eq, start_eq, candidates]
  simp [Search.meet, Search.run, Search.next?, Queue.pop?, Queue.push, Queue.empty, hwanted,
    Search.serve, Search.expand, Search.settle, references_eq, Search.follow, standingOf_edge,
    Search.reach, Search.accepts, Std.HashMap.getElem_insert, Search.way, Search.wayBack,
    Std.HashMap.size_insert]

theorem ofReference_edge {source : ObjectId} (h : source ∈ [1, 10, 11, 12, 13, 14, 15])
    (name : String) (target : ObjectId) :
    Hop.ofReference graph (edge source name target) = .ok (hop name) := by
  simp only [Hop.ofReference, classNameOf, source_edge, className?_eq h]
  simp [edge, class?_one, hop, bind, Except.bind]

theorem ofCandidate_eq {c : Candidate} (h : c.object ∈ [10, 11, 12, 13, 14, 15]) :
    Leaking.ofCandidate graph c = .ok ⟨c.object, "Node", "INSTANCE", c.reason⟩ := by
  have hmem : c.object ∈ [1, 10, 11, 12, 13, 14, 15] := List.mem_cons_of_mem _ h
  have hobject : (graph.object? c.object).map Object.kindName = some "INSTANCE" := by
    rw [object?_eq hmem]
    generalize c.object = id at h
    simp only [List.mem_cons, List.not_mem_nil, or_false] at h
    rcases h with rfl | rfl | rfl | rfl | rfl | rfl <;> rfl
  obtain ⟨o, ho, hkind⟩ := Option.map_eq_some_iff.1 hobject
  simp [Leaking.ofCandidate, classNameOf, className?_eq hmem, ho, hkind, bind, Except.bind]

theorem ofSearch_eq {s : Search} {c : Candidate} {way : List Reference} {path : List Hop}
    {library : Option String} (hc : candidates.find? (·.object == c.object) = some c)
    (hnode : c.object ∈ [10, 11, 12, 13, 14, 15]) (hway : s.way c.object = (.jniGlobal, way))
    (hpath : List.Forall₂ (fun r hop ↦ Hop.ofReference graph r = .ok hop) way path)
    (hlibrary : s.visits[c.object]?.bind Visit.library = library) :
    Member.ofSearch graph s candidates c.object =
      .ok ⟨⟨.jniGlobal, path, ⟨c.object, "Node", "INSTANCE", c.reason⟩⟩, library⟩ := by
  rw [Member.ofSearch, hc]
  refine bind_eq_ok_iff.2 ⟨_, ?_, congrArg _ (congrArg _ hlibrary)⟩
  rw [Trace.ofSearch, hway]
  refine bind_eq_ok_iff.2 ⟨path, mapM_eq_ok_iff.2 hpath, ?_⟩
  exact bind_eq_ok_iff.2 ⟨_, ofCandidate_eq hnode, rfl⟩

theorem findPaths_eq : findPaths graph candidates matchers = .ok findings := by
  obtain ⟨hfound, hway, hway', hlibrary, hlibrary'⟩ := searchFor_eq
  have hplain : Member.ofSearch graph (searchFor graph candidates matchers) candidates 13 =
      .ok plainMember :=
    ofSearch_eq (c := ⟨13, "Node", "c"⟩) rfl (by simp) hway (by simp [ofReference_edge]) hlibrary
  have hdeferred : Member.ofSearch graph (searchFor graph candidates matchers) candidates 14 =
      .ok libraryMember :=
    ofSearch_eq (c := ⟨14, "Node", "a"⟩) rfl (by simp) hway' (by simp [ofReference_edge]) hlibrary'
  have hunreachable : (candidates.map Candidate.object).filter
      (!(searchFor graph candidates matchers).found.contains ·) = [15] := by
    rw [hfound]
    simp [candidates]
  refine findPaths_eq_ok_iff.2 ⟨findings, ?_, rfl⟩
  refine bind_eq_ok_iff.2 ⟨[plainMember, libraryMember], ?_, ?_⟩
  · rw [hfound, mapM_eq_ok_iff]
    exact .cons hplain (.cons hdeferred .nil)
  · rw [hunreachable]
    rfl

end Detour

end HeapSentry.Leak
