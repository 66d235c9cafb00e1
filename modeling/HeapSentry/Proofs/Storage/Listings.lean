import HeapSentry.Proofs.Storage.Sweeping
import Mathlib.Data.List.Sort
import Mathlib.Data.String.Basic

/-!
# Listings

A listing is in the order of the names, so it is known as soon as the files that are in it are.
When files are removed from the analysis directory, its listing loses their names, and everything else
stays where it is.
-/

namespace HeapSentry

open Storage Storage.FileTree Storage.Path

namespace Storage.Path

/-- The order of paths, name by name. -/
def Precedes (p q : String) : Prop := names p < names q

theorem precedes_join {base name other : String} (hname : IsName name) (hother : IsName other)
    (h : name < other) : Precedes (join base name) (join base other) := by
  rw [Precedes, names_join_name hname, names_join_name hother]
  apply List.append_left_lt
  exact List.Lex.rel h

end Storage.Path

namespace Storage.FileTree

variable {t : FileTree} {path : String} {found : List (String × Bool)}

theorem compare_snoc (l : Location) (name other : String) :
    compare (l ++ [name]) (l ++ [other]) = compare name other := by
  induction l with
  | nil =>
      rw [List.nil_append, List.nil_append, List.compare_cons_cons]
      cases compare name other <;> rfl
  | cons first l ih =>
      have hself : compare first first = .eq := Std.ReflCmp.compare_self
      rw [List.cons_append, List.cons_append, List.compare_cons_cons, ih, hself]
      rfl

theorem pairwise_entries (h : t.entries path = .ok found) :
    (found.map Prod.fst).Pairwise (· < ·) := by
  obtain ⟨hdir, hne⟩ := hasDir_of_entries h
  rw [hdir.entries hne] at h
  obtain rfl := Except.ok.inj h
  rw [List.pairwise_map, List.pairwise_filterMap]
  refine Std.TreeMap.ordered_keys_toList.imp ?_
  rintro ⟨l, n⟩ ⟨l', n'⟩ hordered ⟨name, kind⟩ hentry ⟨name', kind'⟩ hentry'
  obtain ⟨rfl, -⟩ := entryIn?_eq_some.1 hentry
  obtain ⟨rfl, -⟩ := entryIn?_eq_some.1 hentry'
  have hcompare : compare name name' = .lt := (compare_snoc _ name name').symm.trans hordered
  exact compareOfLessAndEq_eq_lt.1 hcompare

end Storage.FileTree

namespace Machine

variable {m m' : Machine} {site : Site} {store : DumpStore} {dir name path : String}
  {names : List String} {l : Location} {content : ByteArray}

/-! ## What is listed -/

theorem pairwise_listing (m : Machine) (dir : String) : (m.listing dir).Pairwise (· < ·) := by
  rw [listing]
  split
  next found hfound =>
    obtain ⟨path, -, hentries⟩ := bind_eq_ok_iff.1 hfound
    have hsub : (filesIn found).Sublist (found.map Prod.fst) := List.filter_sublist.map _
    exact (pairwise_entries hentries).sublist hsub
  next => exact List.Pairwise.nil

/-- The entries of a directory can be listed just if there is a directory. -/
theorem exists_entries_iff :
    (∃ found, (m.perform (.entries dir)).1 = .ok found) ↔ m.lookAt dir = .ok .dir := by
  rw [perform, lookAt]
  cases m.accept dir with
  | error e => simp [bind, Except.bind]
  | ok path =>
      change (∃ found, m.files.entries path = .ok found) ↔ m.files.look path = .ok .dir
      constructor
      · rintro ⟨found, hfound⟩
        obtain ⟨hdir, hne⟩ := hasDir_of_entries hfound
        rw [look_of_locate (hdir.locate hne), hdir.node]
      · intro hlook
        obtain ⟨l, hl, -⟩ := bind_eq_ok_iff.1 hlook
        rw [FileTree.entries, hlook]
        change ∃ found, (m.files.locate path >>= _) = .ok found
        rw [hl]
        exact ⟨_, rfl⟩

theorem mem_listing_iff (hlook : m.lookAt dir = .ok .dir) : name ∈ m.listing dir ↔
    ∃ content, m.files.node? (place (m.absolute dir) ++ [name]) = some (.file content) := by
  obtain ⟨found, hfound⟩ := exists_entries_iff.2 hlook
  obtain ⟨path, haccept, hentries⟩ := bind_eq_ok_iff.1 hfound
  obtain rfl := eq_of_accept haccept
  rw [listing, hfound, mem_filesIn, mem_entries hentries]
  constructor
  · rintro ⟨n, hn, hkind⟩
    cases n with
    | dir => cases hkind
    | file content => exact ⟨content, hn⟩
  · rintro ⟨content, hcontent⟩
    exact ⟨.file content, hcontent, rfl⟩

theorem listing_of_not_dir (hlook : m.lookAt dir ≠ .ok .dir) : m.listing dir = [] := by
  rw [listing]
  split
  next found hfound => exact absurd (exists_entries_iff.1 ⟨found, hfound⟩) hlook
  next => rfl

/-- What is listed of a directory that has lost some of its files. -/
theorem listing_eq_filter {keeps : String → Bool} (hworking : m'.workingDir = m.workingDir)
    (hlook : m'.lookAt dir = m.lookAt dir)
    (hfiles : ∀ name, m'.files.node? (place (m.absolute dir) ++ [name]) =
      if keeps name then m.files.node? (place (m.absolute dir) ++ [name]) else none) :
    m'.listing dir = (m.listing dir).filter keeps := by
  by_cases hdir : m.lookAt dir = .ok .dir
  · have habsolute : m'.absolute dir = m.absolute dir := by
      rw [Machine.absolute, Machine.absolute, hworking]
    have hsorted := (pairwise_listing m dir).filter keeps
    refine (pairwise_listing m' dir).eq_of_mem_iff hsorted fun name ↦ ?_
    rw [mem_listing_iff (hlook.trans hdir), habsolute, List.mem_filter, mem_listing_iff hdir,
      hfiles name]
    cases keeps name <;> simp
  · rw [listing_of_not_dir hdir, listing_of_not_dir (hlook ▸ hdir)]
    rfl

/-! ## What removals leave -/

/-- A file can be removed just if it is there. -/
theorem perform_remove_eq_ok_iff :
    (m.perform (.remove path)).1 = .ok () ↔ ∃ content, m.lookAt path = .ok (.file content) := by
  rw [perform, lookAt]
  cases haccept : m.accept path with
  | error e => simp [bind, Except.bind, settle]
  | ok absolute =>
      change (m.settle (m.files.remove absolute)).1 = .ok () ↔
        ∃ content, m.files.look absolute = .ok (.file content)
      constructor
      · intro h
        cases hremove : m.files.remove absolute with
        | error e =>
            rw [hremove] at h
            cases h
        | ok t =>
            obtain ⟨n, hn, hrest⟩ := bind_eq_ok_iff.1 hremove
            cases n with
            | dir => cases hrest
            | file content => exact ⟨content, hn⟩
      · rintro ⟨content, hcontent⟩
        obtain ⟨l, hl, -⟩ := bind_eq_ok_iff.1 hcontent
        rw [FileTree.remove, hcontent]
        change (m.settle (m.files.locate absolute >>= _)).1 = .ok ()
        rw [hl]
        rfl

theorem discard_eq (m : Machine) (store : DumpStore) (names : List String) :
    m.discard store names = { m with files := (m.discard store names).files } := by
  induction names generalizing m with
  | nil => rfl
  | cons name names ih =>
      have hfirst : ∀ result : Except FileError FileTree,
          (m.settle result).2 = { m with files := (m.settle result).2.files } := by
        intro result
        cases result <;> rfl
      have hrest := ih (m.perform (.remove (join store.analysisDir name))).2
      rw [discard, List.foldl_cons]
      refine hrest.trans ?_
      rw [perform, hfirst]
      rfl

theorem isProper_discard (h : m.files.IsProper) (store : DumpStore) (names : List String) :
    (m.discard store names).files.IsProper := by
  induction names generalizing m with
  | nil => exact h
  | cons name names ih => exact ih (isProper_perform h (r := .remove _) trivial)

theorem Reaches.node?_discard (h : m.Reaches site)
    (hnames : ∀ name ∈ names, IsName name ∧ name ≠ "..")
    (hl : ∀ name ∈ names, l ≠ site.fileAt name) :
    (m.discard site.store names).files.node? l = m.files.node? l := by
  induction names generalizing m with
  | nil => rfl
  | cons name names ih =>
      obtain ⟨⟨hname, hup⟩, hnames⟩ := List.forall_mem_cons.1 hnames
      obtain ⟨hne, hl⟩ := List.forall_mem_cons.1 hl
      let r : Request := .remove (join site.store.analysisDir name)
      have hrest := ih (h.perform (r := r) trivial) hnames hl
      refine hrest.trans ((evolves_perform m (r := r) trivial).same l fun htouches ↦ hne ?_)
      have htouches : l = place (m.absolute (join site.store.analysisDir name)) := htouches
      rwa [h.absolute_join hname, place_join hname hup] at htouches

theorem Reaches.node?_discard_of_mem (h : m.Reaches site)
    (hnames : ∀ name ∈ names, IsName name ∧ name ≠ "..") (hmem : name ∈ names)
    (hfile : m.lookAt (join site.store.analysisDir name) = .ok (.file content)) :
    (m.discard site.store names).files.node? (site.fileAt name) = none := by
  obtain ⟨hname, hup⟩ := hnames name hmem
  have hgone := h.lookAt_discard_of_mem hnames hmem hfile
  obtain ⟨absolute, haccept, hlook⟩ := bind_eq_ok_iff.1 hfile
  obtain rfl := eq_of_accept haccept
  rw [h.absolute_join hname] at haccept hlook
  have hentry : IsEntry name := ⟨hname, hup, (hasDir_of_look_join hname hlook).2⟩
  have hworking : (m.discard site.store names).workingDir = m.workingDir := by
    rw [discard_eq]
  rw [lookAt, accept_congr hworking, haccept] at hgone
  change (m.discard site.store names).files.look (join site.dir name) = _ at hgone
  rw [(h.discard names).room.look_join hentry] at hgone
  cases hnode : (m.discard site.store names).files.node? (site.fileAt name) with
  | none => rfl
  | some n =>
      rw [Site.fileAt] at hnode
      rw [hnode] at hgone
      cases hgone

theorem Reaches.absolute_dir (h : m.Reaches site) :
    m.absolute site.store.analysisDir = site.dir := by
  rw [← site.absolute_dir, Machine.absolute, Site.absolute, h.workingDir]

theorem Reaches.lookAt_analysisDir (h : m.Reaches site) (h' : m'.Reaches site) :
    m'.lookAt site.store.analysisDir = m.lookAt site.store.analysisDir := by
  have hlook : ∀ {other : Machine}, other.Reaches site →
      other.files.look (other.absolute site.store.analysisDir) = .ok .dir := by
    intro other hother
    rw [hother.absolute_dir, look_of_locate (hother.room.locate site.dir_ne_empty),
      hother.room.node]
  rw [lookAt, lookAt, accept_congr (h'.workingDir.trans h.workingDir.symm)]
  cases haccept : m.accept site.store.analysisDir with
  | error e => rfl
  | ok absolute =>
      have haccept' := (accept_congr (h'.workingDir.trans h.workingDir.symm) _).trans haccept
      obtain rfl := eq_of_accept haccept
      change m'.files.look _ = m.files.look _
      rw [hlook h, eq_of_accept haccept', hlook h']

end Machine

end HeapSentry
