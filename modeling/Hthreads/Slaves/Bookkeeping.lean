import Hthreads.Slaves.Loaded
import Mathlib.Data.List.DropRight

/-! What blocking does to the execution time and the first used accelerator of a thread on a slave:
every wake-up passes through the same code as the start. -/

namespace Hthreads.Slaves

open Library Software

/-- The V-HWTI of a slave, the execution time of its thread in the TCB, and what it has stored
through pointers. -/
structure Hwti where
  record : Record
  executionTime : Time
  tcbTime : Option Time
  stores : List (Huint × Huint)
  deriving DecidableEq

namespace Hwti

variable (s : Hwti)

-- `none` where anything can be the answer
def answer (status : Huint) : SocketAccess → Option Huint
  | .readPrFlag => some s.record.prFlag
  | .own (.read .firstUsed) => some s.record.firstUsed
  | .own (.read .firstUsedPtr) => some s.record.firstUsedPtr
  | .own (.read .lastUsed) => some s.record.lastUsed
  | .own (.read .lastUsedPtr) => some s.record.lastUsedPtr
  | .own .readPrevLastUsed => some s.record.prevLastUsed
  | .own (.lock _ _) => some status
  | _ => none

def time (now : Time) : SocketAccess → Option Time
  | .own .timeGet => some now
  | .own .readTime => some s.executionTime
  | _ => none

def apply (a : SocketAccess) : Hwti where
  record := a.record s.record
  executionTime := match a with
    | .own (.writeTime t) => t
    | _ => s.executionTime
  tcbTime := match a with
    | .own (.setExecutionTime _ t) => some t
    | _ => s.tcbTime
  stores := match a with
    | .own (.store ptr value) => s.stores ++ [(ptr, value)]
    | _ => s.stores

/-- One access, at a time and with the answer that a lock gets. -/
def Step (status : Huint) (now : Time) : Request → Hwti → Hwti → Answer → Prop
  | .socket _ a, s, t, b => a ≠ .own .spin ∧ (∀ w, s.answer status a = some w → b.word = w) ∧
      (∀ x, s.time now a = some x → b.time = x) ∧ t = s.apply a
  | .stop, _, _, _ => False

/-- The effect of `wait_for_go_command` when GO comes at this time. -/
def started (now : Time) : Hwti :=
  { s with record := { s.record with firstUsed := noAcc }, executionTime := now }

/-- The slave can be reconfigured, or has the accelerator loaded already. -/
def Admits (v : Record) (acc : Accelerator) : Prop := v.prFlag = prFlag ∨ v.lastUsed = acc.code

instance (v : Record) (acc : Accelerator) : Decidable (Admits v acc) :=
  inferInstanceAs (Decidable (_ ∨ _))

end Hwti

/-- What a thread does that touches its bookkeeping. A lock is answered with a status, and GO comes
at the given time if it blocks. -/
inductive Deed
  | call (acc : Accelerator) (size : Huint)
  | lock (num status : Huint) (woken : Time)
  | unlock (num : Huint)
  deriving DecidableEq

namespace Deed

def blocks : Deed → Bool
  | lock _ status _ => status == htMutexBlock
  | _ => false

def Does (n : ℕ) (i : SlaveId) : Deed → Hwti → Hwti → Prop
  | call acc size, s, t => ∃ b, (SocketCode.useHW n i acc.code size).Ends (Hwti.Step 0 0) s b t
  | lock num status woken, s, t =>
    (SocketCode.own i (Code.procHwMutexLock num)).Ends (Hwti.Step status woken) s () t
  | unlock num, s, t => (SocketCode.own i (Code.procHwMutexUnlock num)).Ends (Hwti.Step 0 0) s () t

def DoesAll (n : ℕ) (i : SlaveId) : List Deed → Hwti → Hwti → Prop
  | [], s, t => s = t
  | d :: rest, s, t => ∃ u, d.Does n i s u ∧ DoesAll n i rest u t

def clock (t : Time) : Deed → Time
  | lock _ status woken => if status = htMutexBlock then woken else t
  | _ => t

def lastStart (start : Time) (deeds : List Deed) : Time := deeds.foldl clock start

def recorded (v : Record) : Deed → Option Accelerator
  | call acc _ => if Hwti.Admits v acc then some acc else none
  | _ => none

def firstRecorded (v : Record) (deeds : List Deed) : Option Accelerator :=
  deeds.findSome? (recorded v)

/-- What comes behind the last wake-up. -/
def sinceWake (deeds : List Deed) : List Deed := deeds.rtakeWhile fun d => !d.blocks

end Deed

structure ThreadRun (n : ℕ) (i : SlaveId) (start : Time) (deeds : List Deed) (stop : Time)
    (ret : Huint) (s t : Hwti) : Prop where
  fresh : s.stores = []
  runs : ∃ u v b, (SocketCode.own i Code.waitForGoCommand).Ends (Hwti.Step 0 start) s () u ∧
    Deed.DoesAll n i deeds u v ∧
    (SocketCode.own i (Code.procHwThreadExit ret)).Ends (Hwti.Step 0 stop) v b t

namespace Hwti

section Pieces

variable {n : ℕ} {i : SlaveId} {s : Hwti} {status : Huint} {now : Time} {a : SocketAccess}

lemma always_socketRead {Q : Huint → Hwti → Prop}
    (h : ∀ w, (∀ w', s.answer status a = some w' → w = w') → Q w (s.apply a)) :
    (SocketCode.read i a).Always (Hwti.Step status now) Q s := by
  rw [SocketCode.read, Program.always_bind, Program.always_issue]
  rintro t b ⟨-, hword, -, rfl⟩
  exact h b.word hword

lemma always_socketPerform {Q : Unit → Hwti → Prop} (h : Q () (s.apply a)) :
    (SocketCode.perform i a).Always (Hwti.Step status now) Q s := by
  rw [SocketCode.perform, Program.always_bind, Program.always_issue]
  rintro t b ⟨-, -, -, rfl⟩
  exact h

abbrev OwnStep (status : Huint) (now : Time) (i : SlaveId) (a : Access) :
    Hwti → Hwti → Answer → Prop := Hwti.Step status now (.socket i (.own a))

lemma always_own {α : Type} {p : Code α} {Q : α → Hwti → Prop}
    (h : p.Always (OwnStep status now i) Q s) :
    (SocketCode.own i p).Always (Hwti.Step status now) Q s := (Program.always_via _ _).mpr h

lemma always_read {r : Register} {Q : Huint → Hwti → Prop}
    (h : ∀ w, (∀ w', s.answer status (.own (.read r)) = some w' → w = w') →
      Q w (s.apply (.own (.read r)))) : (Code.read r).Always (OwnStep status now i) Q s := by
  rw [Code.read, Program.always_bind, Program.always_issue]
  rintro t b ⟨-, hword, -, rfl⟩
  exact h b.word hword

lemma always_perform {a : Access} {Q : Unit → Hwti → Prop} (h : Q () (s.apply (.own a))) :
    (Code.perform a).Always (OwnStep status now i) Q s := by
  rw [Code.perform, Program.always_bind, Program.always_issue]
  rintro t b ⟨-, -, -, rfl⟩
  exact h

lemma always_issue {a : Access} {Q : Answer → Hwti → Prop}
    (h : ∀ b, (∀ w, s.answer status (.own a) = some w → b.word = w) → Q b (s.apply (.own a))) :
    (Program.issue a : Code Answer).Always (OwnStep status now i) Q s := by
  rw [Program.always_issue]
  rintro t b ⟨-, hword, -, rfl⟩
  exact h b hword

lemma always_time {a : Access} {Q : Time → Hwti → Prop}
    (h : ∀ x, (∀ x', s.time now (.own a) = some x' → x = x') → Q x (s.apply (.own a))) :
    (Code.time a).Always (OwnStep status now i) Q s := by
  rw [Code.time, Program.always_bind, Program.always_issue]
  rintro t b ⟨-, -, htime, rfl⟩
  exact h b.time htime

lemma always_then {ι β α γ σ : Type} {step : ι → σ → σ → β → Prop} {p : Program ι β α}
    {f : α → Program ι β γ} {Q : γ → σ → Prop} {s : σ}
    (h : p.Always step (fun a => (f a).Always step Q) s) : (p >>= f).Always step Q s :=
  (Program.always_bind p f).mpr h

lemma always_waitForGoCommand :
    Code.waitForGoCommand.Always (OwnStep status now i) (fun _ t => t = s.started now) s := by
  rw [Code.waitForGoCommand]
  refine always_then (always_perform (always_then (always_perform (always_then
    (always_perform (always_then (always_time fun x hx => ?_)))))))
  rw [hx now rfl]
  exact always_then (always_perform (always_perform rfl))

lemma always_procHwMutexLock (num : Huint) :
    (Code.procHwMutexLock num).Always (OwnStep status now i)
      (fun _ t => t = if status = htMutexBlock then s.started now else s) s := by
  rw [Code.procHwMutexLock]
  refine always_then (always_read fun tid _ => always_then (always_issue fun b hb => ?_))
  rw [hb status rfl]
  split
  · exact always_waitForGoCommand
  · rfl

lemma always_procHwMutexUnlock (num : Huint) :
    (Code.procHwMutexUnlock num).Always (OwnStep status now i) (fun _ t => t = s) s := by
  rw [Code.procHwMutexUnlock]
  exact always_then (always_read fun tid _ => always_perform rfl)

end Pieces

section Calls

variable {n : ℕ} {i : SlaveId} {s : Hwti} {status : Huint} {now : Time}

/-- From one state to the other, at most the loaded accelerator has changed, and that only on a
slave that can be reconfigured. -/
structure Reloaded (s t : Hwti) : Prop where
  firstUsed : t.record.firstUsed = s.record.firstUsed
  firstUsedPtr : t.record.firstUsedPtr = s.record.firstUsedPtr
  lastUsedPtr : t.record.lastUsedPtr = s.record.lastUsedPtr
  prFlag : t.record.prFlag = s.record.prFlag
  lastUsed : s.record.prFlag = Slaves.prFlag ∨ t.record.lastUsed = s.record.lastUsed
  executionTime : t.executionTime = s.executionTime
  tcbTime : t.tcbTime = s.tcbTime
  stores : t.stores = s.stores

lemma Reloaded.refl (s : Hwti) : Reloaded s s := ⟨rfl, rfl, rfl, rfl, .inr rfl, rfl, rfl, rfl⟩

lemma always_pollStatus : (SocketCode.pollStatus i n).Always (Hwti.Step status now)
    (fun _ t => t = s) s := by
  induction n with
  | zero => exact fun _ _ hstep => hstep.elim
  | succ n ih =>
    rw [SocketCode.pollStatus]
    refine always_then (always_socketRead fun w _ => ?_)
    split_ifs
    · rfl
    · exact ih
    · rfl

lemma always_performPR (acc : Huint) (hflag : s.record.prFlag = Slaves.prFlag) :
    (SocketCode.performPR n i i acc).Always (Hwti.Step status now) (fun _ t => Reloaded s t) s := by
  rw [SocketCode.performPR]
  refine always_then (always_socketRead fun trigger _ => always_then ?_)
  have hrest : (do
      let status ← SocketCode.pollStatus i n
      if status = failure then pure failure
      else do
        SocketCode.perform i (.own (.write .lastUsed acc))
        pure success : SocketCode Hint).Always (Hwti.Step status now)
      (fun _ t => Reloaded s t) s := by
    refine always_then (always_pollStatus.mono ?_)
    rintro outcome t rfl
    split
    · exact .refl t
    · refine always_then (always_socketPerform ?_)
      exact ⟨rfl, rfl, rfl, rfl, .inl hflag, rfl, rfl, rfl⟩
  split
  · exact always_socketPerform hrest
  · exact hrest

def noted (s : Hwti) (acc : Accelerator) : Hwti :=
  if Admits s.record acc ∧ s.record.firstUsed = noAcc then
    { s with record := { s.record with firstUsed := acc.code } }
  else s

lemma always_reload (acc : Accelerator) (size : Huint) {current hasPR : Huint}
    (hcurrent : current = s.record.lastUsed) (hhasPR : hasPR = s.record.prFlag)
    (hadmits : Admits s.record acc) :
    (if current = acc.code then pure true
    else if hasPR ≠ 0 then do
      let worthwhile ← SocketCode.read i (.worthwhile acc.code size)
      if worthwhile ≠ 0 then do
        let status ← SocketCode.slavePerformPR n i (SocketCode.slaveNum i) acc.code
        pure (status == success)
      else pure false
    else pure false : SocketCode Bool).Always (Hwti.Step status now)
      (fun _ t => Reloaded s t) s := by
  subst hcurrent hhasPR
  split_ifs with hloaded
  · exact .refl s
  · refine always_then (always_socketRead fun worthwhile _ => ?_)
    split_ifs
    · rw [slavePerformPR_eq]
      exact always_then (always_performPR acc.code (hadmits.resolve_right hloaded))
    · exact .refl s
  · exact .refl s

lemma noted_record (s : Hwti) (acc : Accelerator) :
    (s.noted acc).record.lastUsed = s.record.lastUsed ∧
    (s.noted acc).record.prFlag = s.record.prFlag := by
  rw [noted]
  split <;> exact ⟨rfl, rfl⟩

lemma always_useHW (acc : Accelerator) (size : Huint) :
    (SocketCode.useHW n i acc.code size).Always (Hwti.Step status now)
      (fun _ t => Reloaded (s.noted acc) t) s := by
  rw [SocketCode.useHW]
  refine always_then (always_socketRead fun current hcurrent => always_then
    (always_socketRead fun hasPR hhasPR => ?_))
  rw [hcurrent _ rfl, hhasPR _ rfl]
  change Program.Always _ (if _ then _ else _) _ s
  have hadmits : ¬ (s.record.prFlag ≠ Slaves.prFlag ∧ s.record.lastUsed ≠ acc.code) ↔
      Admits s.record acc := by
    rw [not_and_or, not_ne_iff, not_ne_iff]
    rfl
  split
  next hno =>
    have hkeep : s.noted acc = s := if_neg fun h => hadmits.mpr h.1 hno
    change Reloaded (s.noted acc) s
    rw [hkeep]
    exact .refl s
  next hyes =>
    have hyes' := hadmits.mp hyes
    obtain ⟨hlast, hflag⟩ := noted_record s acc
    have hnoted : Admits (s.noted acc).record acc := by
      rw [Admits, hlast, hflag]
      exact hyes'
    refine always_then (always_socketRead fun first hfirst => always_then ?_)
    rw [hfirst _ rfl]
    change Program.Always _ (if s.record.firstUsed = noAcc then _ else _) _ s
    by_cases hnone : s.record.firstUsed = noAcc
    · rw [if_pos hnone]
      refine always_socketPerform ?_
      have heq : s.noted acc = s.apply (.own (.write .firstUsed acc.code)) := if_pos ⟨hyes', hnone⟩
      rw [← heq]
      exact always_reload acc size hlast.symm hflag.symm hnoted
    · rw [if_neg hnone]
      have heq : s.noted acc = s := if_neg fun h => hnone h.2
      have hrest := @always_reload n i (s.noted acc) status now acc size _ _ hlast.symm hflag.symm
        hnoted
      rw [heq] at hrest ⊢
      exact hrest

end Calls

section Exit

variable {i : SlaveId} {s : Hwti} {now : Time}

def reported (v : Record) : List (Huint × Huint) :=
  if v.firstUsed ≠ noAcc ∧ v.firstUsedPtr ≠ null then [(v.firstUsedPtr, v.firstUsed)] else []

lemma always_reportFirstUsed : Code.reportFirstUsed.Always (OwnStep 0 now i)
    (fun _ t => t = { s with stores := s.stores ++ reported s.record }) s := by
  have hnone (h : ¬ (s.record.firstUsed ≠ noAcc ∧ s.record.firstUsedPtr ≠ null)) :
      s = { s with stores := s.stores ++ reported s.record } := by
    rw [reported, if_neg h, List.append_nil]
  rw [Code.reportFirstUsed]
  refine always_then (always_read fun first hfirst => ?_)
  rw [hfirst _ rfl]
  change Program.Always _ (if s.record.firstUsed ≠ noAcc then _ else _) _ s
  by_cases hused : s.record.firstUsed ≠ noAcc
  · rw [if_pos hused]
    refine always_then (always_read fun ptr hptr => ?_)
    rw [hptr _ rfl]
    change Program.Always _ (if s.record.firstUsedPtr ≠ null then _ else _) _ s
    by_cases hnull : s.record.firstUsedPtr ≠ null
    · rw [if_pos hnull]
      refine always_then (always_read fun acc hacc => ?_)
      rw [hacc _ rfl]
      refine always_perform ?_
      rw [reported, if_pos ⟨hused, hnull⟩]
      rfl
    · rw [if_neg hnull]
      exact hnone fun h => hnull h.2
  · rw [if_neg hused]
    exact hnone fun h => hused h.1

/-- At the end of a thread nothing more goes anywhere but through the other pointer. -/
structure Closed (s t : Hwti) : Prop where
  tcbTime : t.tcbTime = s.tcbTime
  stores : ∃ l, t.stores = s.stores ++ l ∧ ∀ p ∈ l, p.1 = s.record.lastUsedPtr

lemma Closed.refl (s : Hwti) : Closed s s :=
  ⟨rfl, [], (List.append_nil _).symm, nofun⟩

lemma always_reportLastUsed : Code.reportLastUsed.Always (OwnStep 0 now i)
    (fun _ t => Closed s t) s := by
  rw [Code.reportLastUsed]
  refine always_then (always_read fun last _ => always_then (always_issue fun prev _ => ?_))
  change Program.Always _ (if last ≠ prev.word then _ else _) _ s
  split
  · refine always_then (always_read fun ptr hptr => ?_)
    rw [hptr _ rfl]
    refine always_then ?_
    change Program.Always _ (if s.record.lastUsedPtr ≠ null then _ else _) _ s
    split
    · refine always_then (always_read fun acc _ => always_perform (always_then
        (always_read fun acc' _ => always_perform ⟨rfl, [(s.record.lastUsedPtr, acc)], rfl, ?_⟩)))
      exact fun p hp => congrArg Prod.fst (List.mem_singleton.mp hp)
    · exact always_then (always_read fun acc _ => always_perform
        ⟨rfl, [], (List.append_nil s.stores).symm, by simp⟩)
  · exact Closed.refl s

lemma always_procHwThreadExit (ret : Huint) : (Code.procHwThreadExit ret).Always (OwnStep 0 now i)
    (fun _ t => t.tcbTime = some (now - s.executionTime) ∧
      ∃ l, t.stores = s.stores ++ reported s.record ++ l ∧
        ∀ p ∈ l, p.1 = s.record.lastUsedPtr) s := by
  have hend (u : Hwti) (htime : u.tcbTime = some (now - s.executionTime))
      (hstores : u.stores = s.stores) (hrecord : u.record = s.record) :
      (do
        Code.reportFirstUsed
        Code.reportLastUsed
        let tid ← Code.read .tid
        let status ← Code.exitThread tid
        Code.perform (.write .utilized flagHwtiFree)
        pure status : Code Huint).Always (OwnStep 0 now i) (fun _ t =>
          t.tcbTime = some (now - s.executionTime) ∧
          ∃ l, t.stores = s.stores ++ reported s.record ++ l ∧
            ∀ p ∈ l, p.1 = s.record.lastUsedPtr) u := by
    refine always_then (always_reportFirstUsed.mono ?_)
    rintro - v rfl
    refine always_then (always_reportLastUsed.mono fun _ w hw => ?_)
    refine always_then (always_read fun tid _ => always_then (always_then (always_issue fun b _ =>
      always_then (always_perform ?_))))
    refine ⟨hw.tcbTime.trans htime, ?_⟩
    obtain ⟨l, hl, hlast⟩ := hw.stores
    refine ⟨l, ?_, fun p hp => (hlast p hp).trans (by rw [← hrecord])⟩
    rw [← hstores, ← hrecord]
    exact hl
  rw [Code.procHwThreadExit]
  refine always_then (always_read fun _ _ => always_then (always_time fun stop hstop =>
    always_then (always_time fun start hstart => ?_)))
  rw [hstop _ rfl, hstart _ rfl]
  refine always_then (always_perform (always_then (always_read fun tid _ =>
    always_then (always_perform (always_then ?_)))))
  split
  · exact always_then (always_perform (always_perform (hend _ rfl rfl rfl)))
  · exact hend _ rfl rfl rfl

end Exit

end Hwti

section Runs

variable {n : ℕ} {i : SlaveId} {v : Record} {firstUsed : Huint} {start now : Time} {s t : Hwti}
  {d : Deed} {deeds : List Deed}

/-- A thread that has come this far since its start with the record `v`. -/
structure Hwti.Follows (v : Record) (firstUsed : Huint) (now : Time) (s : Hwti) : Prop where
  firstUsed : s.record.firstUsed = firstUsed
  firstUsedPtr : s.record.firstUsedPtr = v.firstUsedPtr
  lastUsedPtr : s.record.lastUsedPtr = v.lastUsedPtr
  prFlag : s.record.prFlag = v.prFlag
  lastUsed : v.prFlag = Slaves.prFlag ∨ s.record.lastUsed = v.lastUsed
  executionTime : s.executionTime = now
  stores : s.stores = []

lemma Hwti.Follows.admits (h : Hwti.Follows v firstUsed now s) (acc : Accelerator) :
    Hwti.Admits s.record acc ↔ Hwti.Admits v acc := by
  rw [Hwti.Admits, Hwti.Admits, h.prFlag]
  rcases h.lastUsed with hflag | hlast
  · exact iff_of_true (.inl hflag) (.inl hflag)
  · rw [hlast]

lemma Hwti.Follows.started (h : Hwti.Follows v firstUsed now s) (woken : Time) :
    Hwti.Follows v noAcc woken (s.started woken) :=
  ⟨rfl, h.firstUsedPtr, h.lastUsedPtr, h.prFlag, h.lastUsed, rfl, h.stores⟩

def Deed.register (v : Record) (firstUsed : Huint) : Deed → Huint
  | call acc _ => if Hwti.Admits v acc ∧ firstUsed = noAcc then acc.code else firstUsed
  | lock _ status _ => if status = htMutexBlock then noAcc else firstUsed
  | unlock _ => firstUsed

lemma Hwti.Follows.does (h : Hwti.Follows v firstUsed now s) (hd : d.Does n i s t) :
    Hwti.Follows v (d.register v firstUsed) (d.clock now) t := by
  cases d with
  | call acc size =>
    obtain ⟨b, hends⟩ := hd
    have hnoted : Hwti.Follows v (if Hwti.Admits v acc ∧ firstUsed = noAcc then acc.code
        else firstUsed) now (s.noted acc) := by
      have hiff : (Hwti.Admits s.record acc ∧ s.record.firstUsed = noAcc) ↔
          Hwti.Admits v acc ∧ firstUsed = noAcc := by rw [h.admits, h.firstUsed]
      rw [Hwti.noted, if_congr hiff rfl rfl]
      split
      · exact ⟨rfl, h.firstUsedPtr, h.lastUsedPtr, h.prFlag, h.lastUsed, h.executionTime, h.stores⟩
      · exact h
    have hreloaded := (Hwti.always_useHW acc size).ends hends
    refine ⟨hreloaded.firstUsed.trans hnoted.firstUsed,
      hreloaded.firstUsedPtr.trans hnoted.firstUsedPtr,
      hreloaded.lastUsedPtr.trans hnoted.lastUsedPtr, hreloaded.prFlag.trans hnoted.prFlag, ?_,
      hreloaded.executionTime.trans hnoted.executionTime, hreloaded.stores.trans hnoted.stores⟩
    rcases hreloaded.lastUsed with hflag | hlast
    · exact .inl (hnoted.prFlag.symm.trans hflag)
    · exact hnoted.lastUsed.imp_right hlast.trans
  | lock num status woken =>
    rw [(Hwti.always_own (Hwti.always_procHwMutexLock num)).ends hd, Deed.register, Deed.clock]
    split
    · exact h.started woken
    · exact h
  | unlock num =>
    rw [(Hwti.always_own (Hwti.always_procHwMutexUnlock num)).ends hd]
    exact h

lemma Hwti.Follows.doesAll (h : Hwti.Follows v firstUsed now s) (hd : Deed.DoesAll n i deeds s t) :
    Hwti.Follows v (deeds.foldl (Deed.register v) firstUsed) (Deed.lastStart now deeds) t := by
  induction deeds generalizing firstUsed now s with
  | nil =>
    obtain rfl := hd
    exact h
  | cons d rest ih =>
    obtain ⟨u, hone, hrest⟩ := hd
    exact ih (h.does hone) hrest

lemma code_ne_noAcc (acc : Accelerator) : acc.code ≠ noAcc := by cases acc <;> decide

lemma code_injective : Function.Injective Accelerator.code := by
  intro a b h
  cases a <;> cases b <;> first | rfl | exact absurd h (by decide)

lemma Deed.foldl_register (v : Record) (deeds : List Deed) : deeds.foldl (Deed.register v) noAcc =
    ((firstRecorded v (sinceWake deeds)).map Accelerator.code).getD noAcc := by
  induction deeds using List.reverseRecOn with
  | nil => rfl
  | append_singleton deeds d ih =>
    have hwake : sinceWake (deeds ++ [d]) = if !d.blocks then sinceWake deeds ++ [d] else [] :=
      List.rtakeWhile_concat ..
    rw [List.foldl_append, List.foldl_cons, List.foldl_nil, ih, hwake]
    cases d with
    | call acc size =>
      change Deed.register v _ (call acc size) =
        ((firstRecorded v (sinceWake deeds ++ [call acc size])).map Accelerator.code).getD noAcc
      rw [register, firstRecorded, firstRecorded, List.findSome?_append, List.findSome?_singleton,
        recorded]
      cases (sinceWake deeds).findSome? (recorded v) with
      | none =>
        by_cases hadmits : Hwti.Admits v acc
        · rw [if_pos ⟨hadmits, rfl⟩, if_pos hadmits]
          rfl
        · rw [if_neg fun h => hadmits h.1, if_neg hadmits]
          rfl
      | some first => rw [if_neg fun h => code_ne_noAcc first h.2]; rfl
    | lock num status woken =>
      by_cases hblocks : status = htMutexBlock
      · simp [register, blocks, hblocks, firstRecorded]
      · have hgoes : (!(lock num status woken).blocks) = true := by simp [blocks, hblocks]
        rw [if_pos hgoes, register, if_neg hblocks, firstRecorded, firstRecorded,
          List.findSome?_append]
        exact congrArg (fun o => (Option.map _ o).getD noAcc) (Option.or_none ..).symm
    | unlock num =>
      change _ = ((firstRecorded v (sinceWake deeds ++ [unlock num])).map Accelerator.code).getD
        noAcc
      rw [register, firstRecorded, firstRecorded, List.findSome?_append]
      exact congrArg (fun o => (Option.map _ o).getD noAcc) (Option.or_none ..).symm

end Runs

section Threads

variable {n : ℕ} {i : SlaveId} {start stop : Time} {deeds : List Deed} {ret : Huint} {s t : Hwti}

/-- The time since the first GO is stored, and the first accelerator that was recorded. -/
structure Undisturbed (start : Time) (deeds : List Deed) (stop : Time) (v : Record) (t : Hwti) :
    Prop where
  time : t.tcbTime = some (stop - start)
  firstUsed : t.stores.filter (·.1 = v.firstUsedPtr) =
    (Deed.firstRecorded v deeds).toList.map fun acc => (v.firstUsedPtr, acc.code)

lemma ThreadRun.result (h : ThreadRun n i start deeds stop ret s t)
    (hptr : s.record.firstUsedPtr ≠ null) (hother : s.record.lastUsedPtr ≠ s.record.firstUsedPtr) :
    t.tcbTime = some (stop - Deed.lastStart start deeds) ∧
      t.stores.filter (·.1 = s.record.firstUsedPtr) =
        (Deed.firstRecorded s.record (Deed.sinceWake deeds)).toList.map fun acc =>
          (s.record.firstUsedPtr, acc.code) := by
  obtain ⟨u, v, b, hgo, hdeeds, hexit⟩ := h.runs
  have hstarted := (Hwti.always_own Hwti.always_waitForGoCommand).ends hgo
  have hfirst : Hwti.Follows s.record noAcc start u :=
    hstarted ▸ ⟨rfl, rfl, rfl, rfl, .inr rfl, rfl, h.fresh⟩
  have hlast := hfirst.doesAll hdeeds
  obtain ⟨htime, l, hstores, hl⟩ := (Hwti.always_own (Hwti.always_procHwThreadExit ret)).ends hexit
  rw [hlast.executionTime] at htime
  refine ⟨htime, ?_⟩
  have hrest : l.filter (fun p => p.1 = s.record.firstUsedPtr) = [] := by
    refine List.filter_eq_nil_iff.mpr fun p hp => ?_
    rw [hl p hp, hlast.lastUsedPtr]
    simpa using hother
  rw [hstores, hlast.stores, List.nil_append, List.filter_append, hrest, List.append_nil,
    Hwti.reported, hlast.firstUsed, hlast.firstUsedPtr, Deed.foldl_register]
  cases Deed.firstRecorded s.record (Deed.sinceWake deeds) with
  | none =>
    rw [if_neg fun hne => hne.1 rfl]
    rfl
  | some acc =>
    rw [if_pos ⟨code_ne_noAcc acc, hptr⟩]
    simp

/-- Blocking disturbs nothing exactly when the last GO came at the time of the first, and the first
accelerator recorded since then is the first of all. -/
theorem thread_undisturbed_iff (h : ThreadRun n i start deeds stop ret s t)
    (hptr : s.record.firstUsedPtr ≠ null) (hother : s.record.lastUsedPtr ≠ s.record.firstUsedPtr) :
    Undisturbed start deeds stop s.record t ↔ Deed.lastStart start deeds = start ∧
      Deed.firstRecorded s.record (Deed.sinceWake deeds) = Deed.firstRecorded s.record deeds := by
  obtain ⟨htime, hstores⟩ := h.result hptr hother
  constructor
  · intro hundisturbed
    have htime' := hundisturbed.time
    have hstores' := hundisturbed.firstUsed
    rw [htime] at htime'
    rw [hstores] at hstores'
    refine ⟨?_, ?_⟩
    · exact (BitVec.sub_right_inj stop).mp (Option.some.inj htime')
    · have hinj : Function.Injective fun acc : Accelerator => (s.record.firstUsedPtr, acc.code) :=
        fun a b hab => code_injective (congrArg Prod.snd hab)
      have hlists := hinj.list_map hstores'
      have hheads := congrArg List.head? hlists
      rwa [Option.head?_toList, Option.head?_toList] at hheads
  · rintro ⟨hlast, hfirst⟩
    rw [hlast] at htime
    rw [hfirst] at hstores
    exact ⟨htime, hstores⟩

end Threads

section Replays

/-- The slave with the plain answers: what nothing is known of is zero. -/
def Hwti.prompt (status : Huint) (now : Time) : Request → Hwti → Option (Hwti × Answer)
  | .socket _ a, s => if a = .own .spin then none
    else some (s.apply a, ⟨(s.answer status a).getD 0, (s.time now a).getD 0⟩)
  | .stop, _ => none

lemma Hwti.prompt_step {status : Huint} {now : Time} (r : Request) (s t : Hwti) (b : Answer)
    (h : Hwti.prompt status now r s = some (t, b)) : Hwti.Step status now r s t b := by
  cases r with
  | stop => cases h
  | socket i a =>
    rw [prompt] at h
    split at h
    next => cases h
    next hspin =>
      cases h
      exact ⟨hspin, fun w hw => by rw [hw]; rfl, fun x hx => by rw [hx]; rfl, rfl⟩

def Deed.replay (n : ℕ) (i : SlaveId) (s : Hwti) : Deed → Option Hwti
  | call acc size => ((SocketCode.useHW n i acc.code size).run (Hwti.prompt 0 0) s).map Prod.fst
  | lock num status woken =>
    ((SocketCode.own i (Code.procHwMutexLock num)).run (Hwti.prompt status woken) s).map Prod.fst
  | unlock num =>
    ((SocketCode.own i (Code.procHwMutexUnlock num)).run (Hwti.prompt 0 0) s).map Prod.fst

lemma Deed.does_of_replay {n : ℕ} {i : SlaveId} {s t : Hwti} {d : Deed}
    (h : d.replay n i s = some t) : d.Does n i s t := by
  cases d with
  | call acc size =>
    obtain ⟨⟨t, b⟩, hrun, rfl⟩ := Option.map_eq_some_iff.mp h
    exact ⟨b, Program.ends_of_run Hwti.prompt_step hrun⟩
  | lock num status woken =>
    obtain ⟨⟨t, ⟨⟩⟩, hrun, rfl⟩ := Option.map_eq_some_iff.mp h
    exact Program.ends_of_run Hwti.prompt_step hrun
  | unlock num =>
    rw [Deed.replay] at h
    obtain ⟨⟨t, ⟨⟩⟩, hrun, rfl⟩ := Option.map_eq_some_iff.mp h
    exact Program.ends_of_run Hwti.prompt_step hrun

lemma Deed.doesAll_of_replay {n : ℕ} {i : SlaveId} {s t : Hwti} {deeds : List Deed}
    (h : deeds.foldlM (fun s d => d.replay n i s) s = some t) : Deed.DoesAll n i deeds s t := by
  induction deeds generalizing s with
  | nil => exact Option.some.inj h
  | cons d rest ih =>
    rw [List.foldlM_cons] at h
    obtain ⟨u, hu, hrest⟩ := Option.bind_eq_some_iff.mp h
    exact ⟨u, Deed.does_of_replay hu, ih hrest⟩

def replayThread (n : ℕ) (i : SlaveId) (start : Time) (deeds : List Deed)
    (stop : Time) (ret : Huint) (s : Hwti) : Option Hwti := do
  let u ← (SocketCode.own i Code.waitForGoCommand).run (Hwti.prompt 0 start) s
  let v ← deeds.foldlM (fun s d => d.replay n i s) u.1
  let t ← (SocketCode.own i (Code.procHwThreadExit ret)).run (Hwti.prompt 0 stop) v
  some t.1

lemma threadRun_of_replay {n : ℕ} {i : SlaveId} {start stop : Time}
    {deeds : List Deed} {ret : Huint}
    {s t : Hwti} (hfresh : s.stores = []) (h : replayThread n i start deeds stop ret s = some t) :
    ThreadRun n i start deeds stop ret s t := by
  rw [replayThread] at h
  obtain ⟨⟨u, ⟨⟩⟩, hu, h⟩ := Option.bind_eq_some_iff.mp h
  obtain ⟨v, hv, h⟩ := Option.bind_eq_some_iff.mp h
  obtain ⟨⟨w, b⟩, hw, h⟩ := Option.bind_eq_some_iff.mp h
  cases h
  exact ⟨hfresh, u, v, b, Program.ends_of_run Hwti.prompt_step hu, Deed.doesAll_of_replay hv,
    Program.ends_of_run Hwti.prompt_step hw⟩

/-- A slave with the CRC core, before a thread starts on it. -/
def crcSlave : Hwti where
  record := ⟨0, noAcc, 0x100, 0, 0x200, 0, 0⟩
  executionTime := 0
  tcbTime := none
  stores := []

-- the lock is free, and the accelerator is used behind it
theorem thread_undisturbed_by_free_lock : ∃ t, ThreadRun 1 0 5 [.lock 0 0 0, .call .crc 8] 20 0
    crcSlave t ∧ Undisturbed 5 [.lock 0 0 0, .call .crc 8] 20 crcSlave.record t := by
  obtain ⟨t, ht⟩ := Option.isSome_iff_exists.mp (show (replayThread 1 0 5
    [.lock 0 0 0, .call .crc 8] 20 0 crcSlave).isSome by decide)
  have hrun := threadRun_of_replay rfl ht
  exact ⟨t, hrun, (thread_undisturbed_iff hrun (by decide) (by decide)).mpr (by decide)⟩

/-- A lock that blocks behind the use of the accelerator: the time counts from the wake-up, and no
first accelerator is reported. -/
theorem thread_disturbed_by_blocking :
    ∃ t, ThreadRun 1 0 5 [.call .crc 8, .lock 0 htMutexBlock 10] 20
    0 crcSlave t ∧ t.tcbTime = some 10 ∧ t.stores = [] ∧
      ¬ Undisturbed 5 [.call .crc 8, .lock 0 htMutexBlock 10] 20 crcSlave.record t := by
  obtain ⟨t, ht⟩ := Option.isSome_iff_exists.mp (show (replayThread 1 0 5
    [.call .crc 8, .lock 0 htMutexBlock 10] 20 0 crcSlave).isSome by decide)
  have hvalues : (replayThread 1 0 5 [.call .crc 8, .lock 0 htMutexBlock 10] 20 0 crcSlave).map
      (fun t => (t.tcbTime, t.stores)) = some (some 10, []) := by decide
  rw [ht, Option.map_some] at hvalues
  have htime : t.tcbTime = some 10 := congrArg Prod.fst (Option.some.inj hvalues)
  have hstores : t.stores = [] := congrArg Prod.snd (Option.some.inj hvalues)
  refine ⟨t, threadRun_of_replay rfl ht, htime, hstores, fun h => ?_⟩
  have hclaimed := h.time
  rw [htime] at hclaimed
  exact absurd hclaimed (by decide)

end Replays

end Hthreads.Slaves
