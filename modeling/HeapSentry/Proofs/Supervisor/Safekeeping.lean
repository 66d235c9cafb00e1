import HeapSentry.Proofs.Supervisor.Startup

/-!
# Dumps are kept safe

No request of a thread that keeps to the custody harms a dump that is kept safe, as long as the dump
is made once at most.
-/

namespace HeapSentry.Supervisor

open Storage Storage.FileTree

variable {site : Site} {stem : String} {settings : Settings} {w w' : World}
  {o : Origin} {c c' : Custody} {r : Request} {answer : Answer r} {annals : List Moment} {i : Nat}

/-! ## What a step makes of the dump -/

section Steps

variable (hsite : site.IsRegular) (hadmits : site.Admits stem)
  (hground : w.IsGrounded site stem) (hsound : (standing site stem w.machine annals).IsSound)

include hground in
theorem spared_dumpHeap {path : String} (hapart : site.IsApart stem path) :
    Machine.Spared site stem w.machine (w.dumpHeap path).2.machine := by
  have hevolves := hground.tool.evolves path w.machine
  rw [hground.isAt.absolute] at hevolves
  have hsame {name : String}
      (hvisits : ¬ Visits (site.absolute path) (site.fileAt name)) :
      (w.dumpHeap path).2.machine.files.node? (site.fileAt name) =
        w.machine.files.node? (site.fileAt name) := by
    refine hevolves.same _ fun heq ↦ hvisits ?_
    rw [heq]
    exact visits_place _
  refine ⟨?_, ?_, fun h ↦ h.evolve hevolves⟩
  · rw [Machine.Has, hsame hapart.1, Machine.Has]
  · rw [Machine.Has, hsame hapart.2, Machine.Has]

include hadmits in
theorem isSilent_dumpHeap {path : String} {answer : Except Pressure.ProbeError Unit}
    (hapart : site.IsApart stem path) :
    Moment.IsSilent site stem ⟨i, o, .dumpHeap path, answer⟩ := by
  refine ⟨fun heq ↦ ?_, fun hnone ↦ (nomatch hnone), fun hnone ↦ (nomatch hnone)⟩
  have heq : some path = some (site.store.pairOf stem).hprof := heq
  exact Site.not_isApart_hprof hadmits (Option.some.inj heq ▸ hapart)

include hadmits hground in
theorem has_json_dumpHeap (havoids : site.Avoids site.store.analysisDir) :
    ((w.dumpHeap (site.store.pairOf stem).hprof).2.machine.Has site (stem ++ "." ++ "json") ↔
      w.machine.Has site (stem ++ "." ++ "json")) ∧
      (w.machine.files.HasDir site.dir →
        (w.dumpHeap (site.store.pairOf stem).hprof).2.machine.files.HasDir site.dir) := by
  have hevolves := hground.tool.evolves (site.store.pairOf stem).hprof w.machine
  refine ⟨?_, fun h ↦ h.evolve hevolves⟩
  rw [Machine.Has]
  refine iff_of_eq (congrArg (·.isSome = true) (hevolves.same _ fun heq ↦ ?_))
  refine Machine.not_visits_hprof hadmits havoids ?_
  rw [heq, hground.isAt.absolute]
  exact visits_place _

include hground hsound in
/-- Whoever listed the dump knows that its directory is there. -/
theorem fits_listed {found : Except FileError (List (String × Bool))}
    (hfound : (w.machine.perform (.entries site.store.analysisDir)).1 = found) :
    (Custody.listed stem found).Fits (standing site stem w.machine annals) := by
  cases found with
  | error e => trivial
  | ok found =>
      rw [Custody.listed]
      split
      next =>
        split
        next hmem => exact (hsound.hprof (hground.isAt.has_of_mem_filesIn hfound hmem)).2
        next => trivial
      next => trivial

include hadmits hground in
/-- A report that was begun is found if the directory is there. -/
theorem isOk_size_json_iff {size : Except FileError Nat}
    (hsize : (w.machine.perform (.size (site.store.pairOf stem).json)).1 = size)
    (hfits : Custody.sorting.Fits (standing site stem w.machine annals)) :
    size.isOk = true ↔ (standing site stem w.machine annals).json :=
  hground.isAt.isOk_size_json hadmits hfits (Prod.ext hsize rfl)

include hsite hground hsound in
theorem becomes_roomy {answer : Except FileError Unit}
    (hanswer : (w.machine.perform (.makeDirs site.store.analysisDir)).1 = answer) :
    (standing site stem w.machine annals).Becomes
      (standing site stem (w.machine.perform (.makeDirs site.store.analysisDir)).2
        (annals ++ [⟨i, o, .machine (.makeDirs site.store.analysisDir), answer⟩])) c
      (if answer.isOk then .ready else .busy 0 .free) := by
  have hspared := hground.isAt.spared_perform (r := .makeDirs site.store.analysisDir)
    (hsite.avoids.isApart stem)
  have hsame := isSame_of_spared hspared (x := ⟨i, o, .machine (.makeDirs site.store.analysisDir),
    answer⟩) (Moment.isSilent_of_none ⟨rfl, rfl, rfl⟩) annals
  refine hsame.becomes hsound ?_
  cases hok : answer.isOk with
  | false => trivial
  | true => exact hground.isAt.hasDir_makeDirs (Prod.ext hanswer rfl) hok

include hsite hadmits hground hsound in
theorem becomes_made {answer : Except Pressure.ProbeError Unit}
    (hfits : Custody.ready.Fits (standing site stem w.machine annals))
    (honce : (standing site stem (w.dumpHeap (site.store.pairOf stem).hprof).2.machine
      (annals ++ [⟨i, o, .dumpHeap (site.store.pairOf stem).hprof, answer⟩])).dumped ≤ 1) :
    (standing site stem w.machine annals).Becomes
      (standing site stem (w.dumpHeap (site.store.pairOf stem).hprof).2.machine
        (annals ++ [⟨i, o, .dumpHeap (site.store.pairOf stem).hprof, answer⟩])) .ready
      (.busy 1 .free) := by
  obtain ⟨hjson, hroom⟩ := has_json_dumpHeap hadmits hground hsite.avoids
  refine Standing.becomes_dumped hsound hjson (hroom hfits) ?_
    (analysed_snoc_of_ne fun hnone ↦ nomatch hnone) (marked_snoc_of_ne fun hnone ↦ nomatch hnone)
    honce trivial
  rw [dumped_snoc w.machine]
  exact congrArg _ (if_pos rfl)

include hsite hadmits hground hsound in
/-- Whoever writes the report has marked the dump or marks it now. -/
theorem becomes_reported {content : ByteArray} {answer : Except FileError Unit}
    (hanswer : (w.machine.perform (.write (site.store.pairOf stem).json content)).1 = answer)
    (hpos : 0 < (standing site stem w.machine annals).dumped)
    (hmarks : (standing site stem w.machine annals).marked ∨ content.size = 0)
    (hwritten : ∀ s : Standing, answer.isOk = true → s.marked → c'.Fits s)
    (hfails : answer.isOk = false → c'.Fits (standing site stem w.machine annals)) :
    (standing site stem w.machine annals).Becomes
      (standing site stem (w.machine.perform (.write (site.store.pairOf stem).json content)).2
        (annals ++ [⟨i, o, .machine (.write (site.store.pairOf stem).json content), answer⟩]))
      c c' := by
  obtain ⟨rfl, hjson⟩ | ⟨hfailed, hsame⟩ := hground.isAt.has_write hadmits (Prod.ext hanswer rfl)
  · have hevolves := Machine.evolves_perform w.machine
      (r := .write (site.store.pairOf stem).json content) trivial
    have hprof := hground.isAt.has_perform (r := .write (site.store.pairOf stem).json content)
      (Machine.not_visits_json hadmits hsite.avoids)
    have hmarked := (marked_snoc w.machine
      (w.machine.perform (.write (site.store.pairOf stem).json content)).2 annals
      ⟨i, o, .machine (.write (site.store.pairOf stem).json content), .ok ()⟩).2
      (hmarks.imp id fun hsize ↦ if_pos hsize)
    exact Standing.becomes_written hsound hprof (fun h ↦ h.evolve hevolves)
      (dumped_snoc_of_ne fun hnone ↦ nomatch hnone) hjson hmarked hpos (hwritten _ rfl hmarked)
  · have hsame : (w.machine.perform (.write (site.store.pairOf stem).json content)).2 =
        w.machine := hsame
    rw [hsame]
    cases answer with
    | ok u => cases hfailed
    | error e =>
        have hstays := isSame_of_spared (.refl site stem w.machine) (x := ⟨i, o,
          .machine (.write (site.store.pairOf stem).json content), .error e⟩)
          (Moment.isSilent_of_none ⟨rfl, rfl, rfl⟩) annals
        exact hstays.becomes hsound (hstays.fits (hfails rfl))

include hsite hadmits hground hsound in
theorem becomes_gone {n m : Nat} {grip : Grip} {answer : Except FileError Unit}
    (hanswer : (w.machine.perform (.remove (site.store.pairOf stem).hprof)).1 = answer)
    (hfits : (Custody.busy n grip).Fits (standing site stem w.machine annals))
    (hpending : 0 < (Custody.busy n grip).load →
      0 < (standing site stem w.machine annals).dumped)
    (howns : m < n ∨ grip ≠ .free) :
    (standing site stem w.machine annals).Becomes
      (standing site stem (w.machine.perform (.remove (site.store.pairOf stem).hprof)).2
        (annals ++ [⟨i, o, .machine (.remove (site.store.pairOf stem).hprof), answer⟩]))
      (.busy n grip) (.busy m .removed) := by
  have hevolves := Machine.evolves_perform w.machine
    (r := .remove (site.store.pairOf stem).hprof) trivial
  have hjson := hground.isAt.has_perform (r := .remove (site.store.pairOf stem).hprof)
    (Machine.not_visits_hprof hadmits hsite.avoids)
  have hgone := hground.isAt.not_has_remove_hprof hadmits hground.hprof
    (fun hthere ↦ (hsound.hprof hthere).2) (Prod.ext hanswer rfl)
  have hpos : 0 < (standing site stem w.machine annals).dumped := by
    obtain hlt | hgrip := howns
    · refine hpending ?_
      change 0 < n + grip.load
      omega
    · cases grip with
      | free => exact absurd rfl hgrip
      | marked => exact (hsound.marked hfits).1
      | served => exact (hsound.marked hfits).1
      | removed => exact hfits.1
  have hbusy : ¬ (Custody.busy n grip).IsAway := by
    rintro ⟨rfl, rfl⟩
    exact howns.elim (fun hlt ↦ (Nat.not_lt_zero _ hlt).elim) fun hne ↦ absurd rfl hne
  have hdumped : (standing site stem (w.machine.perform
      (.remove (site.store.pairOf stem).hprof)).2
        (annals ++ [⟨i, o, .machine (.remove (site.store.pairOf stem).hprof), answer⟩])).dumped =
      (standing site stem w.machine annals).dumped :=
    dumped_snoc_of_ne fun hnone ↦ nomatch hnone
  exact Standing.becomes_removed hsound hgone hjson.1 (fun h ↦ h.evolve hevolves) hdumped
    (analysed_snoc_of_ne fun hnone ↦ nomatch hnone) (marked_snoc_of_ne fun hnone ↦ nomatch hnone)
    hbusy ⟨hdumped ▸ hpos, hgone⟩

include hsite hadmits hground hsound in
/-- A report goes after its dump only. -/
theorem becomes_cleared {n : Nat} {answer : Except FileError Unit}
    (hanswer : (w.machine.perform (.remove (site.store.pairOf stem).json)).1 = answer)
    (hfits : (Custody.busy n .removed).Fits (standing site stem w.machine annals)) :
    (standing site stem w.machine annals).Becomes
      (standing site stem (w.machine.perform (.remove (site.store.pairOf stem).json)).2
        (annals ++ [⟨i, o, .machine (.remove (site.store.pairOf stem).json), answer⟩]))
      (.busy n .removed) (.busy n .removed) := by
  have hevolves := Machine.evolves_perform w.machine
    (r := .remove (site.store.pairOf stem).json) trivial
  have hprof := hground.isAt.has_perform (r := .remove (site.store.pairOf stem).json)
    (Machine.not_visits_json hadmits hsite.avoids)
  have hgone := hprof.not.2 hfits.2
  have hdumped : (standing site stem (w.machine.perform
      (.remove (site.store.pairOf stem).json)).2
        (annals ++ [⟨i, o, .machine (.remove (site.store.pairOf stem).json), answer⟩])).dumped =
      (standing site stem w.machine annals).dumped :=
    dumped_snoc_of_ne fun hnone ↦ nomatch hnone
  exact Standing.becomes_removed hsound hgone
    (hground.isAt.has_of_remove_json hadmits (Prod.ext hanswer rfl)) (fun h ↦ h.evolve hevolves)
    hdumped (analysed_snoc_of_ne fun hnone ↦ nomatch hnone)
    (marked_snoc_of_ne fun hnone ↦ nomatch hnone) (fun haway ↦ nomatch haway.2)
    ⟨hdumped ▸ hfits.1, hgone⟩

include hsound in
theorem becomes_begun {n : Nat} {answer : Except FileError Nat}
    (hfits : (Custody.busy n .marked).Fits (standing site stem w.machine annals)) :
    (standing site stem w.machine annals).Becomes
      (standing site stem w.machine
        (annals ++ [⟨i, o, .service (.size (site.store.pairOf stem).hprof), answer⟩]))
      (.busy n .marked) (.busy n .served) := by
  have hmarked : (standing site stem w.machine
      (annals ++ [⟨i, o, .service (.size (site.store.pairOf stem).hprof), answer⟩])).marked ↔
        (standing site stem w.machine annals).marked :=
    marked_snoc_of_ne fun hnone ↦ nomatch hnone
  exact Standing.becomes_analysed hsound Iff.rfl Iff.rfl id
    (dumped_snoc_of_ne fun hnone ↦ nomatch hnone) hmarked hfits (hmarked.2 hfits)

include hsite hadmits hground hsound in
theorem Custody.Step.becomes (hstep : Custody.Step site stem o c r answer c') (hwild : c ≠ .wild)
    (hw : w.perform settings r = (answer, w'))
    (hdeferred : Knows site stem (w.memory.deferred.map Job.pair))
    (hfits : c.Fits (standing site stem w.machine annals))
    (hpending : 0 < c.load → 0 < (standing site stem w.machine annals).dumped)
    (honce : (standing site stem w'.machine (annals ++ [⟨i, o, r, answer⟩])).dumped ≤ 1) :
    (standing site stem w.machine annals).Becomes
      (standing site stem w'.machine (annals ++ [⟨i, o, r, answer⟩])) c c' := by
  have hworld := congrArg Prod.snd hw
  have hanswer := congrArg Prod.fst hw
  have hsilent (hspared : Machine.Spared site stem w.machine w'.machine)
      (hx : Moment.IsSilent site stem ⟨i, o, r, answer⟩)
      (hc' : c'.Fits (standing site stem w.machine annals)) :=
    have hsame := isSame_of_spared hspared hx annals
    hsame.becomes (c := c) hsound (hsame.fits hc')
  have hstays (hmachine : w'.machine = w.machine)
      (hnone : Moment.dumped? ⟨i, o, r, answer⟩ = none ∧
        Moment.analysed? ⟨i, o, r, answer⟩ = none ∧ Moment.marked? ⟨i, o, r, answer⟩ = none) :=
    hsilent (hmachine ▸ .refl site stem _) (Moment.isSilent_of_none hnone)
  cases hstep with
  | wild => exact absurd rfl hwild
  | common hcommon =>
      exact hsilent (hcommon.spared hground.isAt hw) (hcommon.isSilent hadmits i o answer) hfits
  | claim =>
      obtain rfl : _ = w' := hworld
      refine hstays rfl ⟨rfl, rfl, rfl⟩ ?_
      split <;> trivial
  | list =>
      obtain rfl : _ = w' := hworld
      exact hstays rfl ⟨rfl, rfl, rfl⟩ (fits_listed hground hsound hanswer)
  | @find size =>
      obtain rfl : _ = w' := hworld
      refine hstays rfl ⟨rfl, rfl, rfl⟩ ?_
      have hjson := isOk_size_json_iff hadmits hground hanswer hfits
      split
      next hok => exact hsound.json (hjson.1 hok)
      next => trivial
  | @take jobs =>
      obtain rfl : _ = w' := hworld
      obtain rfl : w.memory.deferred = jobs := hanswer
      refine hstays rfl ⟨rfl, rfl, rfl⟩ ?_
      rw [Custody.given_of_knows hdeferred]
      trivial
  | spawn =>
      obtain rfl : _ = w' := hworld
      exact hstays rfl ⟨rfl, rfl, rfl⟩ hfits.busy
  | defer =>
      obtain rfl : _ = w' := hworld
      exact hstays rfl ⟨rfl, rfl, rfl⟩ hfits.busy
  | makeRoom =>
      obtain rfl : _ = w' := hworld
      exact becomes_roomy hsite hground hsound hanswer
  | dump =>
      obtain rfl : _ = w' := hworld
      exact becomes_made hsite hadmits hground hsound hfits honce
  | dumpOther hapart =>
      obtain rfl : _ = w' := hworld
      exact hsilent (spared_dumpHeap hground hapart) (isSilent_dumpHeap hadmits hapart) trivial
  | @mark n grip written =>
      obtain rfl : _ = w' := hworld
      have hpos := hpending (Nat.lt_of_lt_of_le (Nat.succ_pos n) (Nat.le_add_right _ _))
      cases written with
      | ok u =>
          exact becomes_reported hsite hadmits hground hsound hanswer hpos (.inr rfl)
            (fun _ _ h ↦ h) fun hfails ↦ (nomatch hfails)
      | error e =>
          exact becomes_reported hsite hadmits hground hsound hanswer hpos (.inr rfl)
            (fun _ hok ↦ (nomatch hok)) fun _ ↦ hfits
  | serve =>
      obtain rfl : _ = w' := hworld
      exact becomes_begun hsound hfits
  | report =>
      obtain rfl : _ = w' := hworld
      exact becomes_reported hsite hadmits hground hsound hanswer (hsound.marked hfits).1
        (.inl hfits) (fun _ _ h ↦ h) fun _ ↦ hfits
  | remove _ howns =>
      obtain rfl : _ = w' := hworld
      exact becomes_gone hsite hadmits hground hsound hanswer hfits hpending howns
  | clear =>
      obtain rfl : _ = w' := hworld
      exact becomes_cleared hsite hadmits hground hsound hanswer hfits

end Steps

end HeapSentry.Supervisor
