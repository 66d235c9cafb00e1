import HeapSentry.Proofs.Storage.Saving

/-!
# A ledger that is kept in a file

A ledger in memory answers one call after another.  One that is kept in a file saves what changes
and may be opened again between any two calls.  As long as nothing fails on the way, nobody who
calls can tell the two apart.
-/

namespace HeapSentry.Storage

namespace Ledger

/-! ## Calls -/

inductive Call where
  | increment (version : String)
  | launch (version : String) (nowMs : Int)
  | count (version : String)
  | firstLaunch (version : String)
  deriving DecidableEq, Repr

/-- What a call is answered. -/
inductive Reply where
  | counted (count : Nat)
  | recorded
  | launched (firstLaunchMs : Option Nat)
  | failed (e : PathFailure)
  deriving DecidableEq, Repr

def Reply.isFailed : Reply → Bool
  | failed _ => true
  | _ => false

namespace Call

def version : Call → String
  | increment v | launch v _ | count v | firstLaunch v => v

def isIncrement : Call → Bool
  | increment _ => true
  | _ => false

/-- What becomes of the entry of the version. -/
def change : Call → LedgerEntry → LedgerEntry
  | increment _, e => { e with analysisCount := e.analysisCount + 1 }
  | launch _ nowMs, e => { e with firstLaunchMs := e.firstLaunchMs <|> some (epochMs nowMs) }
  | count _, e | firstLaunch _, e => e

/-- What is answered, given what became of the entry. -/
def reply : Call → LedgerEntry → Reply
  | increment _, e | count _, e => .counted e.analysisCount
  | launch .., _ => .recorded
  | firstLaunch _, e => .launched e.firstLaunchMs

/-- Whether a call changes a ledger, so that it has to be saved. -/
def changes (l : Ledger) : Call → Bool
  | increment _ => true
  | launch v _ => (l.firstLaunchMs v).isNone
  | count _ | firstLaunch _ => false

/-- The time of a launch of a version. -/
def launchOf? (version : String) : Call → Option Nat
  | launch v nowMs => if v = version then some (epochMs nowMs) else none
  | _ => none

end Call

/-- What calls tell about a version: how often it was incremented and when it was first launched. -/
def entryOf (version : String) (calls : List Call) : LedgerEntry :=
  ⟨calls.count (.increment version), calls.findSome? (Call.launchOf? version)⟩

/-- The calls with the answers that the calls up to each of them lead to. -/
def account (calls : List Call) : List (Call × Reply) :=
  calls.mapIdx fun i c ↦ (c, c.reply (entryOf c.version (calls.take (i + 1))))

/-- What a ledger answers and what becomes of it. -/
def handle (l : Ledger) : Call → Reply × Ledger
  | .increment v => (.counted ((l.increment v).analysisCount v), l.increment v)
  | .launch v nowMs => (.recorded, l.recordLaunch v nowMs)
  | .count v => (.counted (l.analysisCount v), l)
  | .firstLaunch v => (.launched (l.firstLaunchMs v), l)

def transcript (l : Ledger) : List Call → List (Call × Reply)
  | [] => []
  | c :: calls => (c, (l.handle c).1) :: (l.handle c).2.transcript calls

/-! ## What a ledger answers -/

variable {l l' : Ledger} {c : Call} {calls earlier : List Call} {v : String}

theorem entry_handle (h : l.IsSorted) (c : Call) (v : String) :
    (l.handle c).2.entry v = if v = c.version then c.change (l.entry v) else l.entry v := by
  have hupdate (change : LedgerEntry → LedgerEntry) (version : String) :
      (l.update version change).entry v =
        if v = version then change (l.entry v) else l.entry v := by
    rw [entry_update h]
    split
    next heq => rw [heq]
    next => rfl
  cases c with
  | increment version => exact hupdate _ version
  | launch version nowMs => exact hupdate _ version
  | count version => exact (ite_self _).symm
  | firstLaunch version => exact (ite_self _).symm

theorem handle_fst (h : l.IsSorted) (c : Call) :
    (l.handle c).1 = c.reply (c.change (l.entry c.version)) := by
  have hentry := entry_handle h c c.version
  rw [if_pos rfl] at hentry
  rw [← hentry]
  cases c with
  | increment version => rfl
  | launch version nowMs => rfl
  | count version => rfl
  | firstLaunch version => rfl

theorem isSorted_handle (h : l.IsSorted) (c : Call) : (l.handle c).2.IsSorted := by
  cases c with
  | increment version => exact h.update version _
  | launch version nowMs => exact h.update version _
  | count version => exact h
  | firstLaunch version => exact h

theorem handle_of_not_changes (h : l.IsSorted) (hidle : c.changes l = false) :
    (l.handle c).2 = l := by
  cases c with
  | increment version => cases hidle
  | launch version nowMs =>
      rw [Call.changes, Option.isNone_eq_false_iff] at hidle
      exact recordLaunch_of_isSome h hidle nowMs
  | count version => rfl
  | firstLaunch version => rfl

theorem fits_change {e : LedgerEntry} (h : e.Fits)
    (hcount : (c.change e).analysisCount < 2 ^ 32) : (c.change e).Fits := by
  refine ⟨hcount, fun ms hms ↦ ?_⟩
  cases c with
  | increment version => exact h.launch ms hms
  | launch version nowMs =>
      have hms : (e.firstLaunchMs <|> some (epochMs nowMs)) = some ms := hms
      rw [Option.orElse_eq_orElse, Option.orElse_eq_or, Option.or_eq_some_iff] at hms
      rcases hms with hold | ⟨-, hnew⟩
      · exact h.launch ms hold
      · rw [← Option.some.inj hnew]
        exact Nat.mod_lt _ (by decide)
  | count version => exact h.launch ms hms
  | firstLaunch version => exact h.launch ms hms

/-- Numbers go on to fit, as long as the counts do. -/
theorem fits_handle (hsorted : l.IsSorted) (hfits : l.Fits)
    (hcount : (l.handle c).2.analysisCount c.version < 2 ^ 32) : (l.handle c).2.Fits := by
  apply fits_of_entries (isSorted_handle hsorted c)
  intro v
  rw [analysisCount, entry_handle hsorted, if_pos rfl] at hcount
  rw [entry_handle hsorted]
  split
  next hv =>
    rw [hv]
    exact fits_change (hfits.entry _) hcount
  next => exact hfits.entry v

/-! ## What calls tell -/

theorem entryOf_snoc (v : String) (calls : List Call) (c : Call) : entryOf v (calls ++ [c]) =
    if v = c.version then c.change (entryOf v calls) else entryOf v calls := by
  rw [entryOf, List.count_append, List.findSome?_append]
  by_cases hv : v = c.version
  · subst hv
    rw [if_pos rfl]
    cases c <;> simp [entryOf, Call.change, Call.version, Call.launchOf?, Option.orElse_eq_or]
  · rw [if_neg hv]
    have hne : ¬ c.version = v := fun heq ↦ hv heq.symm
    cases c <;> simp_all [entryOf, Call.version, Call.launchOf?]

theorem count_entryOf_le (v : String) (calls : List Call) :
    (entryOf v calls).analysisCount ≤ calls.countP Call.isIncrement := by
  apply List.countP_mono_left
  intro c _ heq
  rw [eq_of_beq heq]
  rfl

/-- Whether a ledger holds just what some calls told. -/
structure Holds (l : Ledger) (calls : List Call) : Prop where
  sorted : l.IsSorted
  entry : ∀ v, l.entry v = entryOf v calls

theorem holds_empty : empty.Holds [] := ⟨isSorted_empty, fun _ ↦ rfl⟩

theorem Holds.handle (h : l.Holds calls) (c : Call) : (l.handle c).2.Holds (calls ++ [c]) where
  sorted := isSorted_handle h.sorted c
  entry v := by rw [entry_handle h.sorted, entryOf_snoc, h.entry]

theorem Holds.reply (h : l.Holds calls) (c : Call) :
    (l.handle c).1 = c.reply (entryOf c.version (calls ++ [c])) := by
  rw [handle_fst h.sorted, entryOf_snoc, if_pos rfl, h.entry]

theorem Holds.transcript (h : l.Holds earlier) (calls : List Call) : l.transcript calls =
    calls.mapIdx fun i c ↦ (c, c.reply (entryOf c.version (earlier ++ calls.take (i + 1)))) := by
  induction calls generalizing l earlier with
  | nil => rfl
  | cons c calls ih =>
      rw [Ledger.transcript, ih (h.handle c), h.reply, List.mapIdx_cons]
      simp

/-- Calls are answered as the calls before them tell. -/
theorem transcript_empty (calls : List Call) : empty.transcript calls = account calls :=
  holds_empty.transcript calls

/-- The answers about one version depend on the calls for it alone. -/
theorem filter_transcript (h : l.IsSorted) (h' : l'.IsSorted) (hsame : l.entry v = l'.entry v)
    (calls : List Call) : (l.transcript calls).filter (fun p ↦ p.1.version = v) =
      l'.transcript (calls.filter fun c ↦ c.version = v) := by
  induction calls generalizing l l' with
  | nil => rfl
  | cons c calls ih =>
      have hentry := entry_handle h c v
      by_cases hv : c.version = v
      · subst hv
        have hentry' := entry_handle h' c c.version
        rw [if_pos rfl] at hentry hentry'
        have hreply : (l.handle c).1 = (l'.handle c).1 := by
          rw [handle_fst h, handle_fst h', hsame]
        have hrest := ih (isSorted_handle h c) (isSorted_handle h' c)
          (by rw [hentry, hentry', hsame])
        simp [transcript, hreply, hrest]
      · rw [if_neg (Ne.symm hv)] at hentry
        have hrest := ih (isSorted_handle h c) h' (hentry.trans hsame)
        simp [transcript, hv, hrest]

end Ledger

/-! ## Calls of a ledger on disk -/

open Ledger

namespace LedgerFile

def handle (f : LedgerFile) : Call → OnMachine (Reply × LedgerFile)
  | .increment v => do
    let (counted, f) ← f.increment v
    return (replyOf (counted.map .counted), f)
  | .launch v nowMs => do
    let (recorded, f) ← f.recordLaunch v nowMs
    return (replyOf (recorded.map fun () ↦ .recorded), f)
  | .count v => return (.counted (f.ledger.analysisCount v), f)
  | .firstLaunch v => return (.launched (f.ledger.firstLaunchMs v), f)
where
  replyOf : Except PathFailure Reply → Reply
    | .ok reply => reply
    | .error e => .failed e

end LedgerFile

section Handling

variable {m m' : Machine} {trouble : Machine.Trouble} {f : LedgerFile} {c : Call}
  {saved : Except PathFailure Unit}

/-- A call that changes something saves the ledger and fails if that fails. -/
theorem runIn_handle_of_changes (h : c.changes f.ledger = true)
    (hsaved : m.runIn trouble (LedgerFile.save ⟨f.path, (f.ledger.handle c).2⟩) = (saved, m')) :
    m.runIn trouble (f.handle c) =
      ((LedgerFile.handle.replyOf (saved.map fun () ↦ (f.ledger.handle c).1),
        ⟨f.path, (f.ledger.handle c).2⟩), m') := by
  cases c with
  | increment v =>
      have hincrement : m.runIn trouble (f.increment v) =
          ((saved.map fun () ↦ (f.ledger.increment v).analysisCount v,
            ⟨f.path, f.ledger.increment v⟩), m') := by
        have hsaved : m.runIn trouble (LedgerFile.save ⟨f.path, f.ledger.increment v⟩) =
            (saved, m') := hsaved
        rw [LedgerFile.increment, Machine.runIn_bind, hsaved]
        rfl
      rw [LedgerFile.handle, Machine.runIn_bind, hincrement]
      cases saved with
      | ok u => rfl
      | error e => rfl
  | launch v nowMs =>
      have hnew : ¬ (f.ledger.firstLaunchMs v).isSome = true := by
        rw [Call.changes, Option.isNone_iff_eq_none] at h
        rw [h]
        exact Bool.false_ne_true
      have hrecord : m.runIn trouble (f.recordLaunch v nowMs) =
          ((saved, ⟨f.path, f.ledger.recordLaunch v nowMs⟩), m') := by
        have hsaved : m.runIn trouble (LedgerFile.save ⟨f.path, f.ledger.recordLaunch v nowMs⟩) =
            (saved, m') := hsaved
        rw [LedgerFile.recordLaunch, if_neg hnew, Machine.runIn_bind, hsaved]
        rfl
      rw [LedgerFile.handle, Machine.runIn_bind, hrecord]
      rfl
  | count v => cases h
  | firstLaunch v => cases h

theorem runIn_handle_of_idle (h : c.changes f.ledger = false) :
    m.runIn trouble (f.handle c) = (((f.ledger.handle c).1, f), m) := by
  cases c with
  | increment v => cases h
  | launch v nowMs =>
      have hknown : (f.ledger.firstLaunchMs v).isSome = true := Option.isNone_eq_false_iff.1 h
      rw [LedgerFile.handle, LedgerFile.recordLaunch, if_pos hknown]
      rfl
  | count v => rfl
  | firstLaunch v => rfl

end Handling

/-! ## Turns at a desk -/

/-- A ledger that is open, and the machine with its file. -/
structure Desk where
  file : LedgerFile
  machine : Machine

/-- A call, with what goes wrong on the way, or opening the ledger again. -/
inductive Turn where
  | call (c : Call) (trouble : Machine.Trouble := {})
  | reopen

namespace Turn

def call? : Turn → Option Call
  | call c _ => some c
  | reopen => none

def IsSmooth : Turn → Prop
  | call _ trouble => trouble = {}
  | reopen => True

end Turn

def callsOf (turns : List Turn) : List Call := turns.filterMap Turn.call?

namespace Desk

def opened (m : Machine) (path : String) : Desk :=
  let (file, machine) := m.run (LedgerFile.load path)
  ⟨file, machine⟩

def reopen (d : Desk) : Desk := opened d.machine d.file.path

def handle (d : Desk) (c : Call) (trouble : Machine.Trouble) : Reply × Desk :=
  let ((reply, file), machine) := d.machine.runIn trouble (d.file.handle c)
  (reply, ⟨file, machine⟩)

def after (d : Desk) : Turn → Desk
  | .call c trouble => (d.handle c trouble).2
  | .reopen => d.reopen

def run (d : Desk) (turns : List Turn) : Desk := turns.foldl after d

/-- The calls with what they are answered. -/
def transcript (d : Desk) : List Turn → List (Call × Reply)
  | [] => []
  | .call c trouble :: turns =>
    (c, (d.handle c trouble).1) :: (d.handle c trouble).2.transcript turns
  | .reopen :: turns => d.reopen.transcript turns

/-- Whether no call fails. -/
def Succeeds (d : Desk) (turns : List Turn) : Prop :=
  ∀ p ∈ d.transcript turns, p.2.isFailed = false

variable {d : Desk} {m : Machine} {path : String} {c : Call} {calls : List Call}
  {turns : List Turn}

theorem opened_eq (m : Machine) (path : String) :
    opened m path = ⟨⟨path, m.ledgerAt path⟩, m⟩ := by
  rw [opened, Machine.run_load]

/-- What can become of a call: nothing has to be saved, or it was saved, or it could not be. -/
theorem handle_cases (d : Desk) (c : Call) (trouble : Machine.Trouble) :
    (c.changes d.file.ledger = false ∧
      d.handle c trouble = ((d.file.ledger.handle c).1, d)) ∨
    (c.changes d.file.ledger = true ∧ ∃ m', m'.textAt d.file.path =
        some (d.file.ledger.handle c).2.text ∧
      d.handle c trouble = ((d.file.ledger.handle c).1,
        ⟨⟨d.file.path, (d.file.ledger.handle c).2⟩, m'⟩)) ∨
    (c.changes d.file.ledger = true ∧ ∃ e m', d.handle c trouble =
      (.failed e, ⟨⟨d.file.path, (d.file.ledger.handle c).2⟩, m'⟩)) := by
  cases hchanges : c.changes d.file.ledger with
  | false =>
      refine .inl ⟨rfl, ?_⟩
      rw [handle, runIn_handle_of_idle hchanges]
  | true =>
      cases hsaved : d.machine.runIn trouble
          (LedgerFile.save ⟨d.file.path, (d.file.ledger.handle c).2⟩) with
      | mk saved m' =>
          have hhandle := runIn_handle_of_changes hchanges hsaved
          cases saved with
          | ok u =>
              refine .inr (.inl ⟨rfl, m', Machine.textAt_of_save hsaved, ?_⟩)
              rw [handle, hhandle]
              rfl
          | error e =>
              refine .inr (.inr ⟨rfl, e, m', ?_⟩)
              rw [handle, hhandle]
              rfl

/-! ## Turns that succeed -/

theorem isFailed_handle (l : Ledger) (c : Call) : (l.handle c).1.isFailed = false := by
  cases c <;> rfl

/-- Where ledgers can be saved, calls without trouble do not fail. -/
theorem handle_of_takesLedger (h : d.machine.TakesLedger d.file.path) (c : Call) :
    (d.handle c {}).1.isFailed = false ∧
      (d.handle c {}).2.machine.TakesLedger (d.handle c {}).2.file.path := by
  cases hchanges : c.changes d.file.ledger with
  | false =>
      rw [handle, runIn_handle_of_idle hchanges]
      exact ⟨isFailed_handle _ c, h⟩
  | true =>
      obtain ⟨m', hsave, hagain⟩ := h.save (d.file.ledger.handle c).2
      rw [← Machine.runIn_eq_run] at hsave
      rw [handle, runIn_handle_of_changes hchanges hsave]
      exact ⟨isFailed_handle _ c, hagain⟩

theorem reopen_takesLedger (h : d.machine.TakesLedger d.file.path) :
    d.reopen.machine.TakesLedger d.reopen.file.path := by
  rw [reopen, opened_eq]
  exact h

theorem succeeds_of_takesLedger (h : d.machine.TakesLedger d.file.path)
    (hsmooth : ∀ turn ∈ turns, turn.IsSmooth) : d.Succeeds turns := by
  induction turns generalizing d with
  | nil => exact List.forall_mem_nil _
  | cons turn turns ih =>
      obtain ⟨hturn, hturns⟩ := List.forall_mem_cons.1 hsmooth
      cases turn with
      | call c trouble =>
          obtain rfl : trouble = {} := hturn
          obtain ⟨hreply, hagain⟩ := handle_of_takesLedger h c
          exact List.forall_mem_cons.2 ⟨hreply, ih hagain hturns⟩
      | reopen => exact ih (reopen_takesLedger h) hturns

/-- Whether the ledger holds just what some calls told, in memory and in its file. -/
structure Mirrors (d : Desk) (calls : List Call) : Prop where
  holds : d.file.ledger.Holds calls
  fits : d.file.ledger.Fits
  stored : d.machine.ledgerAt d.file.path = d.file.ledger

theorem mirrors_opened (h : (m.perform (.read path)).1 = .error .notFound) :
    (opened m path).Mirrors [] := by
  rw [opened_eq, Machine.ledgerAt_of_not_found h]
  exact ⟨holds_empty, List.forall_mem_nil _, Machine.ledgerAt_of_not_found h⟩

/-- Nothing is lost when the ledger is opened again. -/
theorem Mirrors.reopen_eq (h : d.Mirrors calls) : d.reopen = d := by
  rw [reopen, opened_eq, h.stored]

theorem Mirrors.handle (h : d.Mirrors calls) {trouble : Machine.Trouble}
    (hok : (d.handle c trouble).1.isFailed = false)
    (hcount : (calls ++ [c]).countP Call.isIncrement < 2 ^ 32) :
    (d.handle c trouble).1 = (d.file.ledger.handle c).1 ∧
      (d.handle c trouble).2.file.ledger = (d.file.ledger.handle c).2 ∧
      (d.handle c trouble).2.Mirrors (calls ++ [c]) := by
  have hholds := h.holds.handle c
  have hfits : (d.file.ledger.handle c).2.Fits := by
    apply fits_handle h.holds.sorted h.fits
    rw [analysisCount, hholds.entry]
    exact lt_of_le_of_lt (count_entryOf_le _ _) hcount
  rcases d.handle_cases c trouble with ⟨hidle, heq⟩ | ⟨-, m', htext, heq⟩ | ⟨-, e, m', heq⟩
  · have hsame := handle_of_not_changes h.holds.sorted hidle
    rw [heq]
    refine ⟨rfl, hsame.symm, ?_, h.fits, h.stored⟩
    rwa [hsame] at hholds
  · rw [heq]
    exact ⟨rfl, rfl, hholds, hfits, Machine.ledgerAt_of_textAt htext hholds.sorted hfits⟩
  · rw [heq] at hok
    cases hok

theorem Mirrors.transcript (h : d.Mirrors calls) (hok : d.Succeeds turns)
    (hcount : (calls ++ callsOf turns).countP Call.isIncrement < 2 ^ 32) :
    d.transcript turns = d.file.ledger.transcript (callsOf turns) := by
  induction turns generalizing d calls with
  | nil => rfl
  | cons turn turns ih =>
      cases turn with
      | call c trouble =>
          obtain ⟨hreply, hrest⟩ := List.forall_mem_cons.1 hok
          have hsplit : calls ++ callsOf (.call c trouble :: turns) =
              (calls ++ [c]) ++ callsOf turns := by simp [callsOf, Turn.call?]
          rw [hsplit] at hcount
          have hlater : (calls ++ [c]).countP Call.isIncrement < 2 ^ 32 := by
            rw [List.countP_append] at hcount
            exact lt_of_le_of_lt (Nat.le_add_right _ _) hcount
          obtain ⟨hsame, hledger, hmirrors⟩ := h.handle hreply hlater
          have hih := ih hmirrors hrest hcount
          rw [hledger] at hih
          rw [Desk.transcript, hsame, hih]
          rfl
      | reopen =>
          rw [Succeeds, Desk.transcript, h.reopen_eq] at hok
          rw [Desk.transcript, h.reopen_eq]
          exact ih h hok hcount

/-- A ledger in a new file answers as one in memory does, however often it is opened again: as many
increments as there were of the version, and its first launch, whatever was asked for other
versions. -/
theorem transcript_opened (hnew : (m.perform (.read path)).1 = .error .notFound)
    (hcount : (callsOf turns).countP Call.isIncrement < 2 ^ 32) :
    (m.TakesLedger path → (∀ turn ∈ turns, turn.IsSmooth) → (opened m path).Succeeds turns) ∧
    ((opened m path).Succeeds turns →
      (opened m path).transcript turns = Ledger.empty.transcript (callsOf turns) ∧
      (opened m path).transcript turns = account (callsOf turns) ∧
      ∀ v, ((opened m path).transcript turns).filter (fun p ↦ p.1.version = v) =
        Ledger.empty.transcript ((callsOf turns).filter fun c ↦ c.version = v)) := by
  refine ⟨fun htakes hsmooth ↦ ?_, fun hok ↦ ?_⟩
  · apply succeeds_of_takesLedger _ hsmooth
    rw [opened_eq]
    exact htakes
  · have hledger : (opened m path).file.ledger = .empty := by
      rw [opened_eq, Machine.ledgerAt_of_not_found hnew]
    have hmemory := (mirrors_opened hnew).transcript hok hcount
    rw [hledger] at hmemory
    refine ⟨hmemory, hmemory.trans (transcript_empty _), fun v ↦ ?_⟩
    rw [hmemory]
    exact filter_transcript isSorted_empty isSorted_empty rfl _

theorem transcript_opened_twice :
    (opened {} "ledger.json").transcript [.call (.launch "1" 7), .reopen, .call (.increment "1"),
        .reopen, .call (.count "1"), .call (.firstLaunch "1"), .call (.count "2")] =
      [(.launch "1" 7, .recorded), (.increment "1", .counted 1), (.count "1", .counted 1),
        (.firstLaunch "1", .launched (some 7)), (.count "2", .counted 0)] := by
  have hnew : ((({} : Machine).perform (.read "ledger.json")).1) = .error .notFound := by
    decide +kernel
  have htakes : ({} : Machine).TakesLedger "ledger.json" := by
    unfold Machine.TakesLedger
    decide +kernel
  have hcount : (callsOf [.call (.launch "1" 7), .reopen, .call (.increment "1"), .reopen,
      .call (.count "1"), .call (.firstLaunch "1"), .call (.count "2")]).countP
        Call.isIncrement < 2 ^ 32 := by decide
  obtain ⟨hsmooth, hrest⟩ := transcript_opened hnew hcount
  obtain ⟨-, haccount, -⟩ := hrest (hsmooth htakes (by simp [Turn.IsSmooth]))
  rw [haccount]
  decide +kernel

end Desk

end HeapSentry.Storage
