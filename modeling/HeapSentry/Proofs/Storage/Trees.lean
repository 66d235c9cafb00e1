import HeapSentry.Proofs.Results
import HeapSentry.Proofs.Storage.Paths
import HeapSentry.Storage.FileTree
import Mathlib.Data.List.Infix

/-!
# File trees

An operation changes a tree only where its path leads, and no directory becomes something else.  In
a directory that is there, every operation on one of its files does what it is meant to do.
-/

namespace HeapSentry.Storage.FileTree

open HeapSentry.Storage.Path

variable {t t' : FileTree} {l l' : Location} {n : Node} {path base name : String}

/-! ## Nodes -/

@[simp] theorem node?_root (t : FileTree) : t.node? [] = some .dir := rfl

theorem node?_insert_self (t : FileTree) (h : l ≠ []) (n : Node) :
    (t.insert l n).node? l = some n := by
  rw [node?, if_neg h, insert, Std.TreeMap.getElem?_insert_self]

theorem node?_insert_of_ne (t : FileTree) (h : l ≠ l') (n : Node) :
    (t.insert l n).node? l' = t.node? l' := by
  have hne : ¬ compare l l' = .eq := fun heq ↦ h (Std.LawfulEqCmp.eq_of_compare heq)
  rw [node?, node?, insert, Std.TreeMap.getElem?_insert, if_neg hne]

theorem node?_erase_self (t : FileTree) (h : l ≠ []) : (t.erase l).node? l = none := by
  rw [node?, if_neg h, erase, Std.TreeMap.getElem?_erase_self]

theorem node?_erase_of_ne (t : FileTree) (h : l ≠ l') : (t.erase l).node? l' = t.node? l' := by
  have hne : ¬ compare l l' = .eq := fun heq ↦ h (Std.LawfulEqCmp.eq_of_compare heq)
  rw [node?, node?, erase, Std.TreeMap.getElem?_erase, if_neg hne]

/-! ## Places -/

/-- Where an absolute path leads, if all but its last name are directories. -/
def place (path : String) : Location := (names path).foldl descend []

/-- Whether a path leads to or through a location. -/
def Visits (path : String) (l : Location) : Prop :=
  ∃ visited, visited <+: names path ∧ visited.foldl descend [] = l

instance (path : String) (l : Location) : Decidable (Visits path l) :=
  decidable_of_iff (∃ visited ∈ (names path).inits, visited.foldl descend [] = l) <| by
    simp only [List.mem_inits, Visits]

theorem visits_place (path : String) : Visits path (place path) :=
  ⟨names path, List.prefix_rfl, rfl⟩

theorem place_join (h : IsName name) (hup : name ≠ "..") (base : String) :
    place (join base name) = place base ++ [name] := by
  rw [place, names_join_name h, List.foldl_append]
  exact if_neg hup

theorem eq_of_walk {ns : List String} (h : t.walk l ns = .ok l') : l' = ns.foldl descend l := by
  induction ns generalizing l with
  | nil => exact (Except.ok.inj h).symm
  | cons name ns ih =>
      rw [walk] at h
      split at h
      next => cases h
      next => cases h
      next =>
        split at h
        next => exact ih h
        next => cases h

theorem eq_of_locate (h : t.locate path = .ok l) : l = place path := by
  rw [locate] at h
  split at h
  next => cases h
  next => exact eq_of_walk h

theorem walk_append (t : FileTree) (l : Location) (ns more : List String) :
    t.walk l (ns ++ more) = t.walk l ns >>= fun here ↦ t.walk here more := by
  induction ns generalizing l with
  | nil => rfl
  | cons name ns ih =>
      rw [List.cons_append, walk, walk]
      cases t.node? l with
      | none => rfl
      | some n =>
          cases n with
          | file content => rfl
          | dir =>
              change (if isName name then _ else _) = (if isName name then _ else _) >>= _
              split
              · exact ih _
              · rfl

/-- Whether a path leads to a directory that is there. -/
structure HasDir (t : FileTree) (path : String) : Prop where
  walk : t.walk [] (names path) = .ok (place path)
  node : t.node? (place path) = some .dir

theorem HasDir.locate (h : t.HasDir path) (hne : path ≠ "") : t.locate path = .ok (place path) := by
  rw [FileTree.locate, if_neg hne, h.walk]

/-- A directory entry that may have its name. -/
structure IsEntry (name : String) : Prop where
  isName : IsName name
  ne_up : name ≠ ".."
  valid : FileTree.isName name = true

theorem join_ne_empty (h : IsName name) (base : String) : join base name ≠ "" := by
  intro hempty
  have hnames := names_join_name h base
  rw [hempty, names_empty] at hnames
  exact absurd hnames.symm (by simp)

theorem HasDir.locate_join (h : t.HasDir base) (hname : IsEntry name) :
    t.locate (join base name) = .ok (place base ++ [name]) := by
  have hone : t.walk (place base) [name] = .ok (place base ++ [name]) := by
    rw [FileTree.walk, h.node]
    simp only [hname.valid, if_true, FileTree.walk, descend, if_neg hname.ne_up]
  rw [FileTree.locate, if_neg (join_ne_empty hname.isName base), names_join_name hname.isName,
    walk_append, h.walk]
  exact hone

theorem asksDirectory_join (h : IsName name) (base : String) :
    asksDirectory (join base name) = false := by
  have hne : name.toList ≠ [] := by simpa using h.ne_empty
  have htext : (join base name).toList.reverse =
      name.toList.reverse ++ (Path.stem base).toList.reverse := by
    rw [join_of_relative h.relative, String.toList_append, List.reverse_append]
  have hslash : '/' ∉ name.toList.reverse := fun hmem ↦ h.noSlash (List.mem_reverse.1 hmem)
  rw [asksDirectory, htext]
  match hname : name.toList.reverse with
  | [] => exact absurd (List.reverse_eq_nil_iff.1 hname) hne
  | [c] =>
      have hc : c ≠ '/' := fun heq ↦ hslash (by simp [hname, heq])
      have hdot : c ≠ '.' := by
        rintro rfl
        have hlist : name.toList = ['.'] := by
          rw [← List.reverse_reverse name.toList, hname]
          rfl
        exact h.ne_dot (String.toList_inj.1 hlist)
      simp [hc, hdot]
  | c :: d :: cs =>
      have hc : c ≠ '/' := fun heq ↦ hslash (by simp [hname, heq])
      have hd : d ≠ '/' := fun heq ↦ hslash (by simp [hname, heq])
      simp [hc, hd]

/-! ## What changes -/

/-- Whether one tree becomes another by changes in some places only, and keeps its directories. -/
structure Evolves (places : Location → Prop) (t t' : FileTree) : Prop where
  same : ∀ l, ¬ places l → t'.node? l = t.node? l
  dirs : ∀ l, t.node? l = some .dir → t'.node? l = some .dir

variable {places others : Location → Prop}

theorem Evolves.refl (places : Location → Prop) (t : FileTree) : Evolves places t t :=
  ⟨fun _ _ ↦ rfl, fun _ h ↦ h⟩

theorem Evolves.trans {u : FileTree} (h : Evolves places t t') (h' : Evolves places t' u) :
    Evolves places t u where
  same l hl := (h'.same l hl).trans (h.same l hl)
  dirs l hl := h'.dirs l (h.dirs l hl)

theorem Evolves.imp (h : Evolves places t t') (himp : ∀ l, places l → others l) :
    Evolves others t t' where
  same l hl := h.same l fun hplace ↦ hl (himp l hplace)
  dirs := h.dirs

theorem evolves_insert (n : Node) (h : t.node? l ≠ some .dir) :
    Evolves (· = l) t (t.insert l n) where
  same l' hl' := node?_insert_of_ne t (Ne.symm hl') n
  dirs l' hl' := by
    have hne : l ≠ l' := fun heq ↦ h (heq ▸ hl')
    rw [node?_insert_of_ne t hne, hl']

theorem evolves_insert_dir (t : FileTree) (l : Location) :
    Evolves (· = l) t (t.insert l .dir) where
  same l' hl' := node?_insert_of_ne t (Ne.symm hl') .dir
  dirs l' hl' := by
    by_cases hroot : l' = []
    · subst hroot
      exact node?_root _
    · by_cases heq : l = l'
      · subst heq
        exact node?_insert_self t hroot .dir
      · rw [node?_insert_of_ne t heq, hl']

theorem evolves_erase (h : t.node? l ≠ some .dir) : Evolves (· = l) t (t.erase l) where
  same l' hl' := node?_erase_of_ne t (Ne.symm hl')
  dirs l' hl' := by
    have hne : l ≠ l' := fun heq ↦ h (heq ▸ hl')
    rw [node?_erase_of_ne t hne, hl']

/-- What stands at the place of a path is what the path leads to. -/
theorem look_of_locate (h : t.locate path = .ok l) : t.look path =
    match t.node? l with
    | none => .error .notFound
    | some .dir => .ok .dir
    | some (.file content) =>
      if asksDirectory path then .error .notADirectory else .ok (.file content) := by
  rw [look, h]
  rfl

theorem writable_of_locate (h : t.locate path = .ok l) : t.writable path =
    match t.node? l with
    | some .dir => .error .isADirectory
    | _ => if asksDirectory path then .error .isADirectory else .ok l := by
  rw [writable, h]
  rfl

theorem eq_of_write {content : ByteArray} (h : t.write path content = .ok t') :
    t.node? (place path) ≠ some .dir ∧ t' = t.insert (place path) (.file content) := by
  obtain ⟨l, hl, hwrite⟩ := bind_eq_ok_iff.1 h
  obtain ⟨l', hl', hwritable⟩ := bind_eq_ok_iff.1 hl
  obtain rfl := eq_of_locate hl'
  refine ⟨fun hdir ↦ ?_, ?_⟩
  · rw [hdir] at hwritable
    cases hwritable
  · have hsame : l = place path := by
      split at hwritable
      next => cases hwritable
      next =>
        split at hwritable
        next => cases hwritable
        next => exact (Except.ok.inj hwritable).symm
    rw [hsame] at hwrite
    exact (Except.ok.inj hwrite).symm

theorem evolves_write {content : ByteArray} (h : t.write path content = .ok t') :
    Evolves (· = place path) t t' := by
  obtain ⟨hnode, rfl⟩ := eq_of_write h
  exact evolves_insert _ hnode

theorem evolves_copy {source target : String} (h : t.copy source target = .ok t') :
    Evolves (· = place target) t t' := by
  obtain ⟨_, -, hrest⟩ := bind_eq_ok_iff.1 h
  obtain ⟨emptied, hemptied, hrest⟩ := bind_eq_ok_iff.1 hrest
  obtain ⟨content, -, hwrite⟩ := bind_eq_ok_iff.1 hrest
  exact (evolves_write hemptied).trans (evolves_write hwrite)

theorem look_eq_file {content : ByteArray} (h : t.look path = .ok (.file content)) :
    t.node? (place path) = some (.file content) := by
  obtain ⟨l, hl, hlook⟩ := bind_eq_ok_iff.1 h
  obtain rfl := eq_of_locate hl
  split at hlook
  next => cases hlook
  next => cases hlook
  next hnode =>
    split at hlook
    next => cases hlook
    next =>
      rw [hnode]
      exact congrArg some (Except.ok.inj hlook)

theorem eq_of_remove (h : t.remove path = .ok t') :
    t.node? (place path) ≠ some .dir ∧ t' = t.erase (place path) := by
  obtain ⟨n, hlook, hrest⟩ := bind_eq_ok_iff.1 h
  cases n with
  | dir => cases hrest
  | file content =>
      obtain ⟨l, hl, herase⟩ := bind_eq_ok_iff.1 hrest
      obtain rfl := eq_of_locate hl
      refine ⟨?_, (Except.ok.inj herase).symm⟩
      rw [look_eq_file hlook]
      exact fun hdir ↦ nomatch hdir

theorem evolves_remove (h : t.remove path = .ok t') : Evolves (· = place path) t t' := by
  obtain ⟨hnode, rfl⟩ := eq_of_remove h
  exact evolves_erase hnode

/-- Files are written and removed, but no directory is made. -/
theorem isDir_of_write {content : ByteArray} (h : t.write path content = .ok t')
    (hdir : t'.node? l = some .dir) : t.node? l = some .dir := by
  obtain ⟨hnode, rfl⟩ := eq_of_write h
  by_cases hroot : l = []
  · rw [hroot, node?_root]
  · by_cases heq : place path = l
    · subst heq
      rw [node?_insert_self t hroot] at hdir
      cases hdir
    · rwa [node?_insert_of_ne t heq] at hdir

theorem isDir_of_copy {source target : String} (h : t.copy source target = .ok t')
    (hdir : t'.node? l = some .dir) : t.node? l = some .dir := by
  obtain ⟨_, -, hrest⟩ := bind_eq_ok_iff.1 h
  obtain ⟨emptied, hemptied, hrest⟩ := bind_eq_ok_iff.1 hrest
  obtain ⟨content, -, hwrite⟩ := bind_eq_ok_iff.1 hrest
  exact isDir_of_write hemptied (isDir_of_write hwrite hdir)

theorem isDir_of_remove (h : t.remove path = .ok t') (hdir : t'.node? l = some .dir) :
    t.node? l = some .dir := by
  obtain ⟨hnode, rfl⟩ := eq_of_remove h
  by_cases hroot : l = []
  · rw [hroot, node?_root]
  · by_cases heq : place path = l
    · subst heq
      rw [node?_erase_self t hroot] at hdir
      cases hdir
    · rwa [node?_erase_of_ne t heq] at hdir

theorem evolves_makeDirsAlong (t : FileTree) (l : Location) (ns : List String) :
    Evolves (fun l' ↦ ∃ visited, visited <+: ns ∧ visited.foldl descend l = l') t
      (t.makeDirsAlong l ns).2 := by
  induction ns generalizing t l with
  | nil => exact .refl _ t
  | cons name ns ih =>
      have hrest (u : FileTree) : Evolves
          (fun l' ↦ ∃ visited, visited <+: name :: ns ∧ visited.foldl descend l = l') u
          (u.makeDirsAlong (descend l name) ns).2 := by
        refine (ih u (descend l name)).imp ?_
        rintro l' ⟨visited, hvisited, rfl⟩
        exact ⟨name :: visited, List.cons_prefix_cons.2 ⟨rfl, hvisited⟩, rfl⟩
      rw [makeDirsAlong]
      split
      · exact .refl _ t
      · cases hnode : t.node? (descend l name) with
        | none =>
            simp only [hnode]
            refine Evolves.trans ((evolves_insert_dir t (descend l name)).imp ?_) (hrest _)
            rintro l' rfl
            exact ⟨[name], List.cons_prefix_cons.2 ⟨rfl, List.nil_prefix⟩, rfl⟩
        | some n =>
            cases n with
            | dir =>
                simp only [hnode]
                exact hrest t
            | file content =>
                simp only [hnode]
                exact .refl _ t

theorem evolves_makeDirs (t : FileTree) (path : String) :
    Evolves (Visits path) t (t.makeDirs path).2 :=
  evolves_makeDirsAlong t [] (names path)

/-! ## Directories stay -/

theorem walk_of_dirs (hdirs : ∀ l, t.node? l = some .dir → t'.node? l = some .dir)
    {ns : List String} (h : t.walk l ns = .ok l') : t'.walk l ns = .ok l' := by
  induction ns generalizing l with
  | nil => exact h
  | cons name ns ih =>
      rw [walk] at h ⊢
      split at h
      next => cases h
      next => cases h
      next hnode =>
        rw [hdirs l hnode]
        split at h
        next hvalid =>
          simp only [hvalid, if_true]
          exact ih h
        next => cases h

theorem HasDir.evolve (h : t.HasDir path) (hevolves : Evolves places t t') : t'.HasDir path :=
  ⟨walk_of_dirs hevolves.dirs h.walk, hevolves.dirs _ h.node⟩

theorem walk_makeDirsAlong (hnode : t.node? l = some .dir) {ns : List String}
    (h : (t.makeDirsAlong l ns).1 = .ok ()) :
    (t.makeDirsAlong l ns).2.walk l ns = .ok (ns.foldl descend l) ∧
      (t.makeDirsAlong l ns).2.node? (ns.foldl descend l) = some .dir := by
  induction ns generalizing t l with
  | nil => exact ⟨rfl, hnode⟩
  | cons name ns ih =>
      have hfirst (u : FileTree) (hu : u.node? l = some .dir)
          (hvalid : FileTree.isName name = true) (hhere : u.node? (descend l name) = some .dir)
          (hok : (u.makeDirsAlong (descend l name) ns).1 = .ok ()) :
          (u.makeDirsAlong (descend l name) ns).2.walk l (name :: ns) =
              .ok ((name :: ns).foldl descend l) ∧
            (u.makeDirsAlong (descend l name) ns).2.node? ((name :: ns).foldl descend l) =
              some .dir := by
        obtain ⟨hwalk, hlast⟩ := ih hhere hok
        have hstays := (evolves_makeDirsAlong u (descend l name) ns).dirs l hu
        refine ⟨?_, hlast⟩
        rw [FileTree.walk, hstays]
        simp only [hvalid, if_true]
        exact hwalk
      rw [makeDirsAlong] at h ⊢
      cases hvalid : FileTree.isName name with
      | false => simp [hvalid] at h
      | true =>
          simp only [hvalid, Bool.not_true, Bool.false_eq_true, if_false] at h ⊢
          cases hhere : t.node? (descend l name) with
          | none =>
              simp only [hhere] at h ⊢
              have hdirs := (evolves_insert_dir t (descend l name)).dirs
              have hne : descend l name ≠ [] := by
                intro hroot
                rw [hroot] at hhere
                cases hhere
              exact hfirst _ (hdirs l hnode) hvalid (node?_insert_self t hne .dir) h
          | some n =>
              cases n with
              | dir =>
                  simp only [hhere] at h ⊢
                  exact hfirst t hnode hvalid hhere h
              | file content =>
                  simp only [hhere] at h
                  cases h

theorem hasDir_makeDirs (h : (t.makeDirs path).1 = .ok ()) : (t.makeDirs path).2.HasDir path := by
  obtain ⟨hwalk, hnode⟩ := walk_makeDirsAlong (node?_root t) h
  exact ⟨hwalk, hnode⟩

/-! ## Files of a directory -/

section Files

variable (h : t.HasDir base) (hname : IsEntry name)
include h hname

theorem HasDir.look_join : t.look (join base name) =
    match t.node? (place base ++ [name]) with
    | none => .error .notFound
    | some n => .ok n := by
  rw [look_of_locate (h.locate_join hname), asksDirectory_join hname.isName]
  cases t.node? (place base ++ [name]) with
  | none => rfl
  | some n => cases n <;> rfl

theorem HasDir.isOk_size_join :
    (t.size (join base name)).isOk = (t.node? (place base ++ [name])).isSome := by
  rw [size, h.look_join hname]
  cases t.node? (place base ++ [name]) with
  | none => rfl
  | some n => cases n <;> rfl

theorem HasDir.remove_join (hnode : t.node? (place base ++ [name]) ≠ some .dir) :
    t.remove (join base name) = if (t.node? (place base ++ [name])).isSome
      then .ok (t.erase (place base ++ [name])) else .error .notFound := by
  rw [remove, h.look_join hname]
  cases hn : t.node? (place base ++ [name]) with
  | none => rfl
  | some n =>
      cases n with
      | dir => exact absurd hn hnode
      | file content =>
          change t.locate (join base name) >>= _ = _
          rw [h.locate_join hname]
          rfl

end Files

/-! ## Proper names -/

/-- Whether everything stands at a place that a path can lead to. -/
def IsProper (t : FileTree) : Prop :=
  ∀ l, (t.node? l).isSome → ∀ name ∈ l, IsName name ∧ name ≠ ".."

theorem mem_foldl_descend {ns : List String} (h : name ∈ ns.foldl descend l) :
    name ∈ l ∨ (name ∈ ns ∧ name ≠ "..") := by
  induction ns generalizing l with
  | nil => exact .inl h
  | cons first ns ih =>
      obtain hhere | ⟨hrest, hup⟩ := ih h
      · rw [descend] at hhere
        split at hhere
        next => exact .inl (List.dropLast_subset l hhere)
        next hup =>
          obtain hold | hnew := List.mem_append.1 hhere
          · exact .inl hold
          · obtain rfl := List.mem_singleton.1 hnew
            exact .inr ⟨List.mem_cons_self, hup⟩
      · exact .inr ⟨List.mem_cons_of_mem _ hrest, hup⟩

theorem Visits.proper (h : Visits path l) : ∀ name ∈ l, IsName name ∧ name ≠ ".." := by
  obtain ⟨visited, hvisited, rfl⟩ := h
  intro name hname
  obtain hroot | ⟨hmem, hup⟩ := mem_foldl_descend hname
  · cases hroot
  · exact ⟨isName_of_mem_names (hvisited.subset hmem), hup⟩

theorem IsProper.evolve (h : t.IsProper) (hevolves : Evolves places t t')
    (hplaces : ∀ l, places l → ∀ name ∈ l, IsName name ∧ name ≠ "..") : t'.IsProper := by
  intro l hl
  by_cases hplace : places l
  · exact hplaces l hplace
  · rw [hevolves.same l hplace] at hl
    exact h l hl

theorem isProper_empty : FileTree.empty.IsProper := by
  intro l hl
  rw [node?] at hl
  split at hl
  next hroot =>
    subst hroot
    exact List.forall_mem_nil _
  next => cases hl

theorem IsProper.insert (h : t.IsProper) (hl : ∀ name ∈ l, IsName name ∧ name ≠ "..") (n : Node) :
    (t.insert l n).IsProper := by
  intro l' hl'
  by_cases heq : l = l'
  · subst heq
    exact hl
  · rw [node?_insert_of_ne t heq] at hl'
    exact h l' hl'

/-- Paths without detours lead where their names say. -/
theorem foldl_descend_of_plain {ns : List String} (h : ".." ∉ ns) (l : Location) :
    ns.foldl descend l = l ++ ns := by
  induction ns generalizing l with
  | nil => exact (List.append_nil l).symm
  | cons name ns ih =>
      obtain ⟨hname, hrest⟩ := not_or.1 (List.mem_cons.not.1 h)
      rw [List.foldl_cons, descend, if_neg (Ne.symm hname), ih hrest, List.append_assoc]
      rfl

/-! ## Listing a directory -/

theorem nodes_eq_some (hne : l ≠ []) : t.nodes[l]? = some n ↔ t.node? l = some n := by
  rw [node?, if_neg hne]

theorem entryIn?_eq_some {dir : Location} {kind : Bool} :
    entryIn? dir (l, n) = some (name, kind) ↔ l = dir ++ [name] ∧ (n matches .dir) = kind := by
  change (if l.dropLast = dir then l.getLast?.map fun name ↦ (name, n matches .dir) else none) =
    _ ↔ _
  constructor
  · intro h
    by_cases hdir : l.dropLast = dir
    · rw [if_pos hdir] at h
      obtain ⟨last, hlast, heq⟩ := Option.map_eq_some_iff.1 h
      obtain ⟨rfl, rfl⟩ := Prod.mk.inj heq
      obtain ⟨before, rfl⟩ := List.getLast?_eq_some_iff.1 hlast
      rw [List.dropLast_concat] at hdir
      exact ⟨by rw [hdir], rfl⟩
    · rw [if_neg hdir] at h
      cases h
  · rintro ⟨rfl, rfl⟩
    rw [List.dropLast_concat, if_pos rfl, List.getLast?_concat]
    rfl

theorem HasDir.entries (h : t.HasDir path) (hne : path ≠ "") :
    t.entries path = .ok (t.nodes.toList.filterMap (entryIn? (place path))) := by
  have hlook : t.look path = .ok .dir := by
    rw [look_of_locate (h.locate hne), h.node]
  rw [FileTree.entries, hlook]
  change t.locate path >>= _ = _
  rw [h.locate hne]
  rfl

theorem hasDir_of_entries {found : List (String × Bool)} (h : t.entries path = .ok found) :
    t.HasDir path ∧ path ≠ "" := by
  obtain ⟨n, hlook, hrest⟩ := bind_eq_ok_iff.1 h
  cases n with
  | file content => cases hrest
  | dir =>
      obtain ⟨l, hlocate, hnode⟩ := bind_eq_ok_iff.1 hlook
      have hl := eq_of_locate hlocate
      subst hl
      rw [locate] at hlocate
      split at hlocate
      next => cases hlocate
      next hne =>
        refine ⟨⟨hlocate, ?_⟩, hne⟩
        split at hnode
        next => cases hnode
        next hdir => exact hdir
        next =>
          split at hnode
          next => cases hnode
          next => cases hnode

variable {found : List (String × Bool)}

theorem mem_entries (h : t.entries path = .ok found) {kind : Bool} :
    (name, kind) ∈ found ↔
      ∃ n, t.node? (place path ++ [name]) = some n ∧ (n matches .dir) = kind := by
  obtain ⟨hdir, hne⟩ := hasDir_of_entries h
  rw [hdir.entries hne] at h
  obtain rfl := Except.ok.inj h
  rw [List.mem_filterMap]
  constructor
  · rintro ⟨⟨l, n⟩, hmem, hentry⟩
    obtain ⟨rfl, hkind⟩ := entryIn?_eq_some.1 hentry
    have hnode := Std.TreeMap.mem_toList_iff_getElem?_eq_some.1 hmem
    exact ⟨n, (nodes_eq_some (by simp)).1 hnode, hkind⟩
  · rintro ⟨n, hnode, hkind⟩
    have hmem := (nodes_eq_some (by simp)).2 hnode
    exact ⟨(_, n), Std.TreeMap.mem_toList_iff_getElem?_eq_some.2 hmem,
      entryIn?_eq_some.2 ⟨rfl, hkind⟩⟩

/-- No name is listed twice. -/
theorem nodup_entries (h : t.entries path = .ok found) : (found.map Prod.fst).Nodup := by
  obtain ⟨hdir, hne⟩ := hasDir_of_entries h
  rw [hdir.entries hne] at h
  obtain rfl := Except.ok.inj h
  rw [List.Nodup, List.pairwise_map, List.pairwise_filterMap]
  refine Std.TreeMap.distinct_keys_toList.imp ?_
  rintro ⟨l, n⟩ ⟨l', n'⟩ hdistinct ⟨name, kind⟩ hentry ⟨name', kind'⟩ hentry' heq
  obtain ⟨rfl, -⟩ := entryIn?_eq_some.1 hentry
  obtain ⟨rfl, -⟩ := entryIn?_eq_some.1 hentry'
  obtain rfl : name = name' := heq
  exact hdistinct (Std.ReflCmp.compare_self)

/-! ## Trees that agree along a path -/

theorem walk_congr {ns : List String}
    (h : ∀ visited, visited <+: ns → t'.node? (visited.foldl descend l) =
      t.node? (visited.foldl descend l)) : t'.walk l ns = t.walk l ns := by
  induction ns generalizing l with
  | nil => rfl
  | cons name ns ih =>
      have hhere : t'.node? l = t.node? l := h [] List.nil_prefix
      have hrest : t'.walk (descend l name) ns = t.walk (descend l name) ns :=
        ih fun visited hvisited ↦ h (name :: visited) (List.cons_prefix_cons.2 ⟨rfl, hvisited⟩)
      rw [walk, walk, hhere, hrest]

theorem look_congr (h : ∀ l, Visits path l → t'.node? l = t.node? l) :
    t'.look path = t.look path := by
  have hlocate : t'.locate path = t.locate path := by
    rw [locate, locate]
    split
    next => rfl
    next => exact walk_congr fun visited hvisited ↦ h _ ⟨visited, hvisited, rfl⟩
  cases hl : t.locate path with
  | error e =>
      rw [look, look, hlocate, hl]
      rfl
  | ok l =>
      obtain rfl := eq_of_locate hl
      rw [look_of_locate (hlocate.trans hl), look_of_locate hl, h _ (visits_place path)]

/-- Whether a directory can be listed shows along its path. -/
theorem entries_error (hlook : t'.look path = t.look path) {e : FileError}
    (h : t'.entries path = .error e) : t.entries path = .error e := by
  rw [entries, hlook] at h
  rw [entries]
  cases hn : t.look path with
  | error e' =>
      rw [hn] at h
      exact h
  | ok n =>
      rw [hn] at h
      cases n with
      | file content => exact h
      | dir =>
          have hlocate : ∃ l, t'.locate path = .ok l := by
            rw [← hlook] at hn
            obtain ⟨l, hl, -⟩ := bind_eq_ok_iff.1 hn
            exact ⟨l, hl⟩
          obtain ⟨l, hl⟩ := hlocate
          change t'.locate path >>= _ = _ at h
          rw [hl] at h
          cases h

end HeapSentry.Storage.FileTree
