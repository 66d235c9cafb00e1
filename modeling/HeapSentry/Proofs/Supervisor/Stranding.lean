import HeapSentry.Proofs.Supervisor.Handling
import Mathlib.Data.List.Infix

/-!
# Analyses that are left waiting

A hand-off looks at the host and then puts its analysis off.  In between the host may come to the
foreground and have everything taken that waits, and nobody looks again.  Nothing else leaves an
analysis waiting for a host that is in the foreground and has called.
-/

namespace HeapSentry.Supervisor

open Report Storage Supervised

/-! ## What threads see -/

def Request.postpones : Request → Bool
  | .defer _ => true
  | _ => false

/-- Whether the host is seen in the background. -/
def Request.seesBackground : (r : Request) → Answer r → Bool
  | .host, seen => !seen.foreground
  | _, _ => false

def Request.takes : Request → Bool
  | .takeDeferred => true
  | _ => false

def Moment.seesBackground (m : Moment) : Bool := m.request.seesBackground m.answer

/-- What a thread has just seen, and whether it has taken what waited. -/
structure Lookout where
  away : Bool := false
  taken : Bool := false

def Lookout.note (l : Lookout) (r : Request) (answer : Answer r) : Lookout :=
  ⟨r.seesBackground answer, l.taken || r.takes⟩

/-- An analysis is put off right after the host was seen in the background, and who brings the host
to the foreground takes what waits. -/
def lookouts : Rules where
  Role := Lookout
  opening _ := {}
  Step _ l r answer l' := l' = l.note r answer ∧ (r.postpones = true → l.away = true)
  Closing o l := o = .call (.foreground true) → l.taken = true

/-! ## Activities -/

variable {setup : Setup} {o : Origin} {l : Lookout} {α β : Type}

/-- Whoever puts nothing off keeps to the rules, and forgets nothing. -/
theorem follows_of_never_postpones {a : Supervised α} (ha : a.Asks (·.postpones = false)) :
    lookouts.Follows o (fun (l' : Lookout) _ ↦ l.taken = true → l'.taken = true) a l := by
  induction a generalizing l with
  | done x => exact id
  | ask r next ih =>
      intro answer
      refine ⟨l.note r answer, ⟨rfl, fun h ↦ by simp [ha.1] at h⟩, ?_⟩
      refine (ih answer (ha.2 answer)).imp fun l' _ hkept htaken ↦ hkept ?_
      rw [Lookout.note, htaken, Bool.true_or]

theorem follows_never_postpones_bind {P : Lookout → β → Prop} {a : Supervised α}
    {f : α → Supervised β} (ha : a.Asks (·.postpones = false))
    (hf : ∀ l' x, lookouts.Follows o P (f x) l') : lookouts.Follows o P (a >>= f) l :=
  Rules.follows_bind (follows_of_never_postpones ha) fun l' x _ ↦ hf l' x

theorem Request.Within.postpones {files : String → Prop} {r : Request} (h : r.Within files) :
    r.postpones = false := by
  cases r with
  | defer job => exact h.elim
  | _ => rfl

/-- Only hand-offs put anything off. -/
theorem never_postpones_of_duties {Q : Duty → α → Prop} {duty : Duty} {a : Supervised α}
    (ha : (duties setup).Follows o Q a duty) (ho : ∀ reason, o ≠ .task (.handOff reason)) :
    a.Asks (·.postpones = false) := by
  induction a generalizing duty with
  | done x => trivial
  | ask r next ih =>
      constructor
      · cases r with
        | defer job =>
            obtain ⟨duty', hstep, -⟩ := ha ()
            cases hstep with
            | plain hplain => exact hplain.elim
            | defer => exact absurd rfl (ho _)
        | _ => rfl
      · intro answer
        obtain ⟨duty', -, hnext⟩ := ha answer
        exact ih answer hnext

theorem never_postpones_analyze (job : Job) :
    (analyze setup job).Asks (·.postpones = false) := by
  have hflush : (duties setup).Follows (.task (.flush [job])) _ (analyze setup job)
      (.flushing [job] .waiting) :=
    follows_analyze job (fun _ ↦ .countFlushed) fun _ ↦ .serveFlushed
  exact never_postpones_of_duties hflush fun _ h ↦ nomatch h

theorem never_postpones_within {files : String → Prop} {a : Supervised α}
    (ha : a.Asks (Request.Within files)) : a.Asks (·.postpones = false) :=
  ha.imp fun _ ↦ Request.Within.postpones

theorem lookouts_take (pair : DumpPair) (info : RunningInfo) :
    lookouts.Follows o (fun _ _ ↦ True) (take setup pair info) l := by
  have hsize : (onMachine (OnMachine.size pair.hprof)).Asks (·.postpones = false) :=
    Activity.asks_request rfl
  refine follows_never_postpones_bind hsize fun l' answer ↦ ?_
  extract_lets size job
  by_cases hempty : size = 0
  · rw [if_pos hempty]
    refine follows_never_postpones_bind (never_postpones_within
      (asks_onMachine (DumpPair.asks_delete _))) fun _ _ ↦ ?_
    exact lookouts.follows_pure trivial
  · rw [if_neg hempty]
    refine Rules.follows_request fun host ↦ ⟨_, ⟨rfl, fun h ↦ nomatch h⟩, ?_⟩
    cases hforeground : host.foreground with
    | true =>
        refine follows_never_postpones_bind (never_postpones_analyze job) fun _ _ ↦ ?_
        exact lookouts.follows_pure trivial
    | false =>
        refine Rules.follows_request fun _ ↦ ⟨_, ⟨rfl, fun _ ↦ ?_⟩, ?_⟩
        · simp [Lookout.note, Request.seesBackground, hforeground]
        · exact lookouts.follows_pure trivial

theorem lookouts_handOff (reason : String) :
    lookouts.Follows o (fun _ _ ↦ True) (handOff setup reason) l := by
  have hclock : wallClock.Asks (·.postpones = false) := Activity.asks_request rfl
  have hfail (pair : Option DumpPair) (e : AnalysisError) (l : Lookout) :
      lookouts.Follows o (fun _ _ ↦ True)
        (fail pair e >>= fun outcome ↦ (pure (some outcome) : Supervised (Option Outcome))) l :=
    follows_never_postpones_bind (never_postpones_within (asks_fail pair e)) fun _ _ ↦
      lookouts.follows_pure trivial
  refine follows_never_postpones_bind (never_postpones_within
    (asks_circumstances setup reason fun _ ↦ True)) fun _ info ↦ ?_
  refine follows_never_postpones_bind hclock fun _ nowMs ↦ ?_
  refine follows_never_postpones_bind (never_postpones_within
    (asks_onMachine (DumpStore.asks_newPair _ _ nowMs))) fun _ made ↦ ?_
  cases made with
  | error e => exact hfail none _ _
  | ok pair =>
      refine Rules.follows_request fun dumped ↦ ⟨_, ⟨rfl, fun h ↦ nomatch h⟩, ?_⟩
      cases dumped with
      | error e => exact hfail (some pair) _ _
      | ok u => exact lookouts_take pair info

theorem lookouts_takeDeferred {f : List Job → Supervised α}
    (hf : ∀ jobs, (f jobs).Asks (·.postpones = false)) :
    lookouts.Follows o (fun (l' : Lookout) _ ↦ l'.taken = true) (takeDeferred >>= f) l := by
  refine Rules.follows_request fun jobs ↦ ⟨_, ⟨rfl, fun h ↦ nomatch h⟩, ?_⟩
  refine (follows_of_never_postpones (hf jobs)).imp fun _ _ hkept ↦ hkept ?_
  exact Bool.or_true l.taken

theorem lookouts_foreground :
    lookouts.Follows o (fun (l' : Lookout) _ ↦ l'.taken = true) (onForeground setup true) l := by
  have hclock : wallClock.Asks (·.postpones = false) := Activity.asks_request rfl
  have hspawn (jobs : List Job) : (spawn (.flush jobs)).Asks (·.postpones = false) :=
    Activity.asks_request rfl
  refine Rules.follows_request fun host ↦ ⟨_, ⟨rfl, fun h ↦ nomatch h⟩, ?_⟩
  refine follows_never_postpones_bind hclock fun _ nowMs ↦ ?_
  refine Rules.follows_request fun result ↦ ⟨_, ⟨rfl, fun h ↦ nomatch h⟩, ?_⟩
  refine follows_never_postpones_bind (never_postpones_within
    (asks_saveChanged setup _)) fun _ _ ↦ ?_
  split
  on_goal 1 =>
    refine Rules.follows_request fun gen ↦ ⟨_, ⟨rfl, fun h ↦ nomatch h⟩, ?_⟩
    refine Rules.follows_request fun _ ↦ ⟨_, ⟨rfl, fun h ↦ nomatch h⟩, ?_⟩
  all_goals
    refine lookouts_takeDeferred fun jobs ↦ ?_
    cases jobs with
    | nil => trivial
    | cons job jobs => exact Activity.asks_bind (hspawn _) fun _ ↦ trivial

theorem govern_lookouts (setup : Setup) : lookouts.Govern setup := by
  have hothers {o : Origin} (hhandOff : ∀ reason, o ≠ .task (.handOff reason))
      (hforeground : o ≠ .call (.foreground true)) :
      lookouts.Follows o (fun l _ ↦ lookouts.Closing o l) (o.activity setup) {} :=
    (follows_of_never_postpones (never_postpones_of_duties (govern_duties setup o) hhandOff)).imp
      fun _ _ _ h ↦ absurd h hforeground
  intro o
  cases o with
  | call c =>
      by_cases hc : c = .foreground true
      · subst hc
        refine Rules.follows_bind lookouts_foreground fun l _ htaken ↦ ?_
        exact lookouts.follows_pure fun _ ↦ htaken
      · exact hothers (fun _ h ↦ nomatch h) fun h ↦ hc (Origin.call.inj h)
  | task t =>
      cases t with
      | handOff reason =>
          refine Rules.follows_bind (lookouts_handOff reason) fun l outcome _ ↦ ?_
          cases outcome with
          | none => exact lookouts.follows_pure fun h ↦ nomatch h
          | some outcome =>
              refine Rules.follows_request fun _ ↦ ⟨_, ⟨rfl, fun h ↦ nomatch h⟩, ?_⟩
              exact fun h ↦ nomatch h
      | _ => exact hothers (fun _ h ↦ nomatch h) fun h ↦ nomatch h

/-! ## Plays -/

section Watchful

variable {history : List Moment} {i : Nat} {m : Moment}

/-- Whether a thread has made no request since it saw the host in the background. -/
def HasJustSeen (history : List Moment) (i : Nat) : Prop :=
  ∃ earlier m later, history = earlier ++ m :: later ∧ m.thread = i ∧
    m.seesBackground = true ∧ ofThread i later = []

theorem HasJustSeen.snoc_of_ne (h : HasJustSeen history i) (hm : m.thread ≠ i) :
    HasJustSeen (history ++ [m]) i := by
  obtain ⟨earlier, look, later, rfl, hlook, hseen, hlater⟩ := h
  refine ⟨earlier, look, later ++ [m], ?_, hlook, hseen, ?_⟩
  · rw [List.append_assoc, List.cons_append]
  · rw [ofThread, List.filter_append, ← ofThread, hlater]
    simp [hm]

theorem takings_ofThread_ne_nil_snoc (h : takings (ofThread i history) ≠ []) :
    takings (ofThread i (history ++ [m])) ≠ [] := by
  rw [ofThread, List.filter_append, takings, List.filterMap_append]
  exact fun hnil ↦ h (List.append_eq_nil_iff.1 hnil).1

structure Play.IsWatchful (p : Play lookouts) : Prop where
  away : ∀ i o (l : Lookout), p.cast[i]? = some (o, l) → l.away = true → HasJustSeen p.history i
  taken : ∀ i o (l : Lookout), p.cast[i]? = some (o, l) → l.taken = true →
    takings (ofThread i p.history) ≠ []
  deferrals : ∀ earlier m later, p.history = earlier ++ m :: later → m.deferred?.isSome →
    HasJustSeen earlier m.thread
  threads : ∀ m ∈ p.history, m.thread < p.cast.length

theorem Play.isWatchful_opening (w : World) : (Play.opening lookouts w).IsWatchful where
  away i o l h := by cases h
  taken i o l h := by cases h
  deferrals earlier m later h := by simp [Play.opening] at h
  threads m h := by cases h

namespace Play.IsWatchful

variable {p p' : Play lookouts} {move : Move}

theorem enter (h : p.IsWatchful) (o : Origin) : (p.enter o).IsWatchful where
  away i o' l hpart haway := by
    rcases getElem?_snoc_eq_some_iff.1 hpart with hold | ⟨-, hnew⟩
    · exact h.away i o' l hold haway
    · cases hnew
      cases haway
  taken i o' l hpart htaken := by
    rcases getElem?_snoc_eq_some_iff.1 hpart with hold | ⟨-, hnew⟩
    · exact h.taken i o' l hold htaken
    · cases hnew
      cases htaken
  deferrals := h.deferrals
  threads m hm := by
    rw [Play.enter, List.length_append]
    exact Nat.lt_add_right _ (h.threads m hm)

theorem answered (h : p.IsWatchful) {o : Origin} {l : Lookout} {r : Request} {answer : Answer r}
    (hpart : p.cast[i]? = some (o, l)) (hdefer : r.postpones = true → l.away = true)
    (world : World) : (p.answered i o (l.note r answer) world r answer).IsWatchful where
  away j o' l' hpart' haway := by
    rcases getElem?_set_eq_some hpart' with ⟨rfl, hnew⟩ | ⟨hne, hold⟩
    · cases hnew
      exact ⟨p.history, ⟨i, o, r, answer⟩, [], rfl, rfl, haway, rfl⟩
    · exact (h.away j o' l' hold haway).snoc_of_ne hne
  taken j o' l' hpart' htaken := by
    rcases getElem?_set_eq_some hpart' with ⟨rfl, hnew⟩ | ⟨hne, hold⟩
    · cases hnew
      rcases Bool.or_eq_true_iff.1 htaken with hbefore | hnow
      · exact takings_ofThread_ne_nil_snoc (h.taken i o l hpart hbefore)
      · cases r with
        | takeDeferred => simp [Play.answered, ofThread, takings, Moment.taken?]
        | _ => cases hnow
    · exact takings_ofThread_ne_nil_snoc (h.taken j o' l' hold htaken)
  deferrals earlier m later hsplit hm := by
    rcases snoc_eq_append_cons hsplit with ⟨rfl, rfl, -⟩ | ⟨before, -, hold⟩
    · refine h.away i o l hpart (hdefer ?_)
      cases r with
      | defer job => rfl
      | _ => cases hm
    · exact h.deferrals earlier m before hold hm
  threads m hm := by
    have hlength : (p.cast.set i (o, l.note r answer)).length = p.cast.length := List.length_set
    refine Nat.lt_of_lt_of_eq ?_ hlength.symm
    obtain hold | rfl := mem_snoc.1 hm
    · exact h.threads m hold
    · exact (List.getElem?_eq_some_iff.1 hpart).1

theorem step (hmove : p.Step setup move p') (h : p.IsWatchful) : p'.IsWatchful := by
  cases hmove with
  | call c => exact h.enter _
  | @begin position task htask =>
      have hsame : Play.IsWatchful { p with world := p.world.withoutTask position } :=
        ⟨h.away, h.taken, h.deferrals, h.threads⟩
      exact hsame.enter _
  | ask hpart hrole hanswer =>
      obtain ⟨rfl, hdefer⟩ := hrole
      exact h.answered hpart hdefer _
  | surround machine host process => exact ⟨h.away, h.taken, h.deferrals, h.threads⟩

end Play.IsWatchful

end Watchful

/-! ## What waits -/

theorem Moment.taken?_of_deferred? {m : Moment} (h : m.deferred?.isSome) : m.taken? = none := by
  obtain ⟨i, o, r, answer⟩ := m
  cases r with
  | takeDeferred => cases h
  | _ => rfl

theorem Moment.taken?_of_seesBackground {m : Moment} (h : m.seesBackground = true) :
    m.taken? = none := by
  obtain ⟨i, o, r, answer⟩ := m
  cases r with
  | takeDeferred => cases h
  | _ => rfl

theorem takings_snoc (history : List Moment) (m : Moment) :
    takings (history ++ [m]) = takings history ++ m.taken?.toList :=
  filterMap_snoc _ _ _

theorem mem_queue_iff {history : List Moment} {job : Job} : job ∈ queue history ↔
    ∃ earlier m later, history = earlier ++ m :: later ∧ m.deferred? = some job ∧
      takings later = [] := by
  induction history using List.reverseRecOn with
  | nil => simp [queue]
  | append_singleton history m ih =>
      rw [queue_snoc, Moment.onQueue]
      constructor
      · intro hjob
        split at hjob
        next => cases hjob
        next htakes =>
          rcases List.mem_append.1 hjob with hold | hnew
          · obtain ⟨earlier, m', later, rfl, hm', hlater⟩ := ih.1 hold
            have htakes := Option.not_isSome_iff_eq_none.1 htakes
            exact ⟨earlier, m', later ++ [m], by simp, hm', by simp [takings_snoc, hlater, htakes]⟩
          · exact ⟨history, m, [], rfl, Option.mem_toList.1 hnew, rfl⟩
      · rintro ⟨earlier, m', later, hsplit, hm', hlater⟩
        rcases snoc_eq_append_cons hsplit with ⟨rfl, rfl, -⟩ | ⟨before, rfl, hold⟩
        · simp [Moment.taken?_of_deferred? (Option.isSome_of_eq_some hm'), hm']
        · rw [takings_snoc, List.append_eq_nil_iff, Option.toList_eq_nil_iff] at hlater
          rw [hlater.2]
          exact List.mem_append_left _ (ih.2 ⟨earlier, m', before, hold, hm', hlater.1⟩)

/-- Whether what waited was taken after a thread saw the host in the background and before it put
an analysis off, and not any more since then. -/
def IsCrossed (history : List Moment) : Prop :=
  ∃ before look between m later, history = before ++ look :: (between ++ m :: later) ∧
    look.thread = m.thread ∧ look.seesBackground = true ∧ ofThread m.thread between = [] ∧
    m.deferred?.isSome ∧ takings between ≠ [] ∧ takings later = []

namespace Scene

/-- Whether the host is in the foreground all through some moves. -/
def StaysForeground (setup : Setup) (s : Scene) (moves : List Move) : Prop :=
  ∀ earlier, earlier <+: moves → (s.run setup earlier).world.host.foreground = true

/-- Whether the host is in the foreground all through some moves, and has begun a call in them that
has returned. -/
structure HasReturned (setup : Setup) (s : Scene) (moves : List Move) : Prop where
  foreground : s.StaysForeground setup moves
  call : ∃ i t, s.threads.length ≤ i ∧ (s.run setup moves).threads[i]? = some t ∧
    t.origin = .call (.foreground true) ∧ t.isDone = true

variable {w : World} {s : Scene} {moves more : List Move}

theorem deferred_run (hw : w.memory.deferred = []) (moves : List Move) :
    ((opening w).run setup moves).world.memory.deferred =
      queue ((opening w).run setup moves).history := by
  have hask (s : Scene) (i : Nat) (o : Origin) (r : Request) (next : Answer r → Supervised Unit)
      (h : s.world.memory.deferred = queue s.history) :
      (s.ask setup i o r next).world.memory.deferred = queue (s.ask setup i o r next).history := by
    rw [ask, queue_snoc, ← h]
    exact World.deferred_perform rfl i o
  exact @run_induction setup (fun s ↦ s.world.memory.deferred = queue s.history)
    (fun _ _ h ↦ h) (fun _ _ h ↦ h) (fun _ _ _ _ h ↦ h) hask _ hw moves

theorem exists_watchful_play (setup : Setup) (w : World) (moves : List Move) :
    ∃ p : Play lookouts, p.Shows ((opening w).run setup moves) ∧ p.IsWatchful := by
  exact Play.Shows.run (govern_lookouts setup) (fun hmove h ↦ h.step hmove)
    (Play.shows_opening lookouts w) (Play.isWatchful_opening w) moves

theorem history_handle (h : s.world.host.foreground = true) (move : Move) :
    ∃ new, (s.handle setup move).history = s.history ++ new ∧
      ∀ m ∈ new, m.seesBackground = false := by
  have hnone : ∃ new, s.history = s.history ++ new ∧ ∀ m ∈ new, m.seesBackground = false :=
    ⟨[], (List.append_nil _).symm, fun _ h ↦ nomatch h⟩
  cases move with
  | step i =>
      rw [handle]
      split
      next o r next hthread =>
        refine ⟨_, rfl, fun m hm ↦ ?_⟩
        obtain rfl := List.mem_singleton.1 hm
        cases r with
        | host => simp [Moment.seesBackground, Request.seesBackground, h]
        | _ => rfl
      next => exact hnone
  | begin position =>
      rw [handle]
      split <;> exact hnone
  | _ => exact hnone

/-- A thread that looks while the host is in the foreground sees it there. -/
theorem StaysForeground.history (h : s.StaysForeground setup moves) :
    ∃ new, (s.run setup moves).history = s.history ++ new ∧
      ∀ m ∈ new, m.seesBackground = false := by
  induction moves using List.reverseRecOn with
  | nil => exact ⟨[], (List.append_nil _).symm, fun _ h ↦ nomatch h⟩
  | append_singleton moves move ih =>
      obtain ⟨new, hnew, hseen⟩ := ih fun earlier hearlier ↦
        h earlier (hearlier.trans (List.prefix_append _ _))
      have hforeground := h moves (List.prefix_append _ _)
      obtain ⟨last, hlast, hseen'⟩ := @history_handle setup _ hforeground move
      refine ⟨new ++ last, ?_, ?_⟩
      · rw [run_append, ← List.append_assoc, ← hnew]
        exact hlast
      · intro m hm
        rcases List.mem_append.1 hm with hm | hm
        · exact hseen m hm
        · exact hseen' m hm

/-- What comes before a look that saw the host in the background came before it was in the
foreground. -/
theorem StaysForeground.isPrefix_of_look (h : s.StaysForeground setup moves)
    {first rest : List Moment} {look : Moment}
    (hsplit : (s.run setup moves).history = first ++ look :: rest)
    (haway : look.seesBackground = true) : first <+: s.history := by
  obtain ⟨new, hnew, hseen⟩ := h.history
  obtain ⟨as, -, rfl⟩ | ⟨bs, hs, -⟩ := List.append_eq_append_iff.1 (hnew.symm.trans hsplit)
  · have hforeground := hseen look (List.mem_append_right as List.mem_cons_self)
    rw [haway] at hforeground
    cases hforeground
  · exact hs ▸ List.prefix_append first bs

theorem isCrossed_of_deferred (hw : w.memory.deferred = [])
    (h : ((opening w).run setup moves).HasReturned setup more)
    (hwaits : ((opening w).run setup (moves ++ more)).world.memory.deferred ≠ []) :
    IsCrossed ((opening w).run setup (moves ++ more)).history := by
  obtain ⟨before, hbefore, hwatchful⟩ := exists_watchful_play setup w moves
  obtain ⟨p, hp, hpwatchful⟩ := exists_watchful_play setup w (moves ++ more)
  rw [deferred_run hw] at hwaits
  rw [run_append] at hp hwaits ⊢
  generalize (opening w).run setup moves = s at *
  obtain ⟨job, hjob⟩ := List.exists_mem_of_ne_nil _ hwaits
  obtain ⟨earlier, m, later, hsplit, hm, hlater⟩ := mem_queue_iff.1 hjob
  rw [← hp.history] at hsplit
  obtain ⟨first, look, between, rfl, hlook, haway, hnone⟩ :=
    hpwatchful.deferrals earlier m later hsplit (by rw [hm]; rfl)
  have hall : (s.run setup more).history = first ++ look :: (between ++ m :: later) := by
    rw [← hp.history, hsplit, List.append_assoc, List.cons_append]
  have hinit : first <+: before.history :=
    hbefore.history ▸ h.foreground.isPrefix_of_look hall haway
  obtain ⟨i, t, hi, ht, horigin, hdone⟩ := h.call
  obtain ⟨l, hpart, hclosing⟩ := hp.closing ht hdone
  obtain ⟨jobs, hjobs⟩ := List.exists_mem_of_ne_nil _
    (hpwatchful.taken i t.origin l hpart (hclosing horigin))
  obtain ⟨taking, hown, htaken⟩ := List.mem_filterMap.1 hjobs
  obtain ⟨hmem, hthread⟩ := List.mem_filter.1 hown
  have hthread : taking.thread = i := of_decide_eq_true hthread
  have hbetween : taking ∈ between := by
    rw [hp.history, hall] at hmem
    simp only [List.mem_append, List.mem_cons] at hmem
    obtain hearly | rfl | hbetween | rfl | hlate := hmem
    · -- The look was before the host came to the foreground, and the taking after that.
      have hlt := hwatchful.threads taking (hinit.subset hearly)
      rw [hbefore.length] at hlt
      omega
    · rw [Moment.taken?_of_seesBackground haway] at htaken
      cases htaken
    · exact hbetween
    · rw [Moment.taken?_of_deferred? (Option.isSome_of_eq_some hm)] at htaken
      cases htaken
    · have hjobs' : jobs ∈ takings later := List.mem_filterMap.2 ⟨taking, hlate, htaken⟩
      rw [hlater] at hjobs'
      cases hjobs'
  refine ⟨first, look, between, m, later, hall, hlook, haway, hnone, Option.isSome_of_eq_some hm,
    ?_, hlater⟩
  exact List.ne_nil_of_mem (List.mem_filterMap.2 ⟨taking, hbetween, htaken⟩)

theorem hasReturned_of_inits (hforeground : ∀ earlier ∈ moves.inits,
      (s.run setup earlier).world.host.foreground = true)
    (hcall : (s.run setup moves).threads[s.threads.length]?.any (fun t ↦
      (t.origin matches .call (.foreground true)) && t.isDone) = true) :
    s.HasReturned setup moves := by
  refine ⟨fun earlier h ↦ hforeground earlier ((List.mem_inits earlier moves).2 h), ?_⟩
  obtain ⟨t, ht, hboth⟩ := (Option.any_eq_true _ _).1 hcall
  obtain ⟨horigin, hdone⟩ := Bool.and_eq_true_iff.1 hboth
  refine ⟨s.threads.length, t, Nat.le_refl _, ht, ?_, hdone⟩
  split at horigin
  next heq => exact heq
  next => cases horigin

end Scene

/-! ## A host that comes back -/

namespace Comeback

def plain : Setup where
  settings := {}
  store := ⟨"/"⟩
  analyst := {}

/-- The host is in the background, and the hand-off is about to begin. -/
def world : World where
  memory := {
    session := { loop := { phase := .terminated } }
    launched := true
    tasks := [.handOff "reason_thread_oom"] }
  host := { foreground := false }
  process := { dumpTool := .writes (some "JAVA PROFILE".toUTF8) }

def after (moves : List Move) : Scene := (Scene.opening world).run plain moves

/-- The hand-off has the heap dumped and looks at the host. -/
def look : List Move := .begin 0 :: List.replicate 10 (.step 0)

/-- After some moves the host comes to the foreground. -/
def comeback (moves : List Move) : List Move :=
  moves ++ [.surround (after moves).world.machine {} (after moves).world.process]

def call (steps : Nat) : List Move := .call (.foreground true) :: List.replicate steps (.step 1)

theorem hasReturned_late :
    (after (comeback (look ++ [.step 0]))).HasReturned plain (call 5) :=
  Scene.hasReturned_of_inits (by decide +kernel) (by decide +kernel)

theorem hasReturned_early :
    (after (comeback look)).HasReturned plain (call 4 ++ [.step 0]) :=
  Scene.hasReturned_of_inits (by decide +kernel) (by decide +kernel)

end Comeback

namespace Scene

/-- While the host is in the foreground and a call that it has made there has returned, nothing
waits, unless the call has taken what waits between the look of a hand-off at the host and what
that has put off. -/
theorem deferred_eq_nil_iff (setup : Setup) (w : World) (moves more : List Move)
    (hw : w.memory.deferred = [])
    (h : ((opening w).run setup moves).HasReturned setup more) :
    ((opening w).run setup (moves ++ more)).world.memory.deferred = [] ↔
      ¬ IsCrossed ((opening w).run setup (moves ++ more)).history := by
  constructor
  · rintro hnil ⟨before, look, between, m, later, hsplit, -, -, -, hm, -, hlater⟩
    obtain ⟨job, hjob⟩ := Option.isSome_iff_exists.1 hm
    rw [deferred_run hw] at hnil
    have hwaits : job ∈ queue ((opening w).run setup (moves ++ more)).history :=
      mem_queue_iff.2 ⟨before ++ look :: between, m, later, by rw [hsplit]; simp, hjob, hlater⟩
    rw [hnil] at hwaits
    cases hwaits
  · intro hcrossed
    by_contra hwaits
    exact hcrossed (isCrossed_of_deferred hw h hwaits)

/-- If the host comes back when the analysis has been put off, the call takes it. -/
theorem late_comeback_leaves_nothing : Comeback.world.memory.deferred = [] ∧
    (Comeback.after (Comeback.comeback (Comeback.look ++ [.step 0]))).HasReturned Comeback.plain
      (Comeback.call 5) ∧
    ¬ IsCrossed (Comeback.after (Comeback.comeback (Comeback.look ++ [.step 0]) ++
      Comeback.call 5)).history := by
  refine ⟨rfl, Comeback.hasReturned_late, ?_⟩
  apply (deferred_eq_nil_iff Comeback.plain Comeback.world _ _ rfl Comeback.hasReturned_late).1
  exact List.isEmpty_iff.1 (by decide +kernel)

/-- Nothing looks again at what is put off after that. -/
theorem foreground_not_always_empty : ¬ ∀ (setup : Setup) (w : World) (moves more : List Move),
    w.memory.deferred = [] → ((opening w).run setup moves).HasReturned setup more →
      (∀ t ∈ ((opening w).run setup (moves ++ more)).threads,
        t.origin.handsOff = true → t.isDone = true) →
      ((opening w).run setup (moves ++ more)).world.memory.deferred = [] := by
  intro h
  have hnil := h Comeback.plain Comeback.world _ _ rfl Comeback.hasReturned_early
    (by decide +kernel)
  have hwaits : (Comeback.after (Comeback.comeback Comeback.look ++
      (Comeback.call 4 ++ [.step 0]))).world.memory.deferred.length = 1 := by decide +kernel
  rw [Comeback.after, hnil] at hwaits
  cases hwaits

end Scene

end HeapSentry.Supervisor
