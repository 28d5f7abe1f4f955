import Hthreads.CondVars.Messenger
import Hthreads.CondVars.UserLogic
import Hthreads.Software.Mutex
import Hthreads.SyncManager.Master
import Hthreads.ThreadManager.Registers

/-! The addresses that stand for commands: the C macros that build them, and the fields that the
cores cut out of them. -/

namespace Hthreads.Software

open Library Library.BitFields Scheduler SyncManager

def htCmdAddThread : Huint := 0x04

def encodeCmd (managerBaseaddr procid th cd : Huint) : Huint :=
  managerBaseaddr ||| maskShift 2 16 procid ||| maskShift 8 2 th ||| maskShift 5 10 cd

-- the macro takes a priority and makes no use of it
def schedCmd (schedulerBaseaddr procid _pr th cd : Huint) : Huint :=
  schedulerBaseaddr ||| maskShift 2 16 procid ||| maskShift 8 8 th ||| maskShift 8 0 cd

def cvrSemaCmd (condvarBaseaddr c t s : Huint) : Huint :=
  condvarBaseaddr ||| maskShift 3 17 c ||| maskShift 8 8 t ||| maskShift 6 2 s

/-- The case expression of the scheduler on `Bus2IP_Addr(24 to 31)`. -/
def addrCommand (addr : Word) : BitVec 8 := slice addr 24 8

/-- `cmd_number` of the synchronization manager with `m` bits for the mutex number. -/
def cmdNumber (m : ℕ) (addr : Word) : BitVec 3 := slice addr (19 - m) 3

/-- The processor id that `encode_cmd` and `sched_cmd` add. -/
def addrProcid (addr : Word) : BitVec 2 := slice addr 14 2

def Clear (base : Word) (lo width : ℕ) : Prop :=
  ∀ i, lo ≤ i → i < lo + width → base.getLsbD i = false

section Fields

variable {v x : Word} {bits shift first width i : ℕ}

lemma maskShift_outside (h : i < shift ∨ shift + bits ≤ i) (hi : i < 32) :
    (maskShift bits shift x).getLsbD i = false := by
  rw [getLsbD_maskShift _ _ _ hi, decide_eq_false (by omega), Bool.false_and]

lemma toNat_slice_field (bits shift : ℕ) (hfirst : first + width + shift = 32)
    (h : ∀ i, shift ≤ i → i < shift + width → v.getLsbD i = (maskShift bits shift x).getLsbD i) :
    (slice v first width).toNat = x.toNat % 2 ^ min bits width := by
  have hfield : slice v first width = (x.setWidth (min bits width)).setWidth width := by
    apply BitVec.eq_of_getLsbD_eq
    intro i hi
    have hpos : 32 - first - width + i = i + shift := by omega
    rw [getLsbD_slice, hpos, h (i + shift) (by omega) (by omega),
      getLsbD_maskShift _ _ _ (by omega),
      BitVec.getLsbD_setWidth, BitVec.getLsbD_setWidth, Nat.add_sub_cancel]
    simp only [hi, decide_true, Bool.true_and]
    exact congrArg (· && _) (decide_eq_decide.mpr (by omega))
  have hlt : x.toNat % 2 ^ min bits width < 2 ^ width :=
    (Nat.mod_lt _ (by positivity)).trans_le (Nat.pow_le_pow_right (by omega) (min_le_right _ _))
  rw [hfield, BitVec.toNat_setWidth, BitVec.toNat_setWidth, Nat.mod_eq_of_lt hlt]

end Fields

section Decoding

variable {base procid th cd c t mid s : Huint}

lemma encodeCmd_fields (hbase : Clear base 2 16) (l : ThreadManager.BusLines)
    (hl : l.bus2ipAddr = encodeCmd base procid th cd) :
    l.command.toNat = cd.toNat % 32 ∧ l.threadId.toNat = th.toNat % 256 ∧
      (addrProcid l.bus2ipAddr).toNat = procid.toNat % 4 := by
  rw [ThreadManager.BusLines.command, ThreadManager.BusLines.threadId, addrProcid, hl]
  refine ⟨toNat_slice_field 5 10 rfl fun i hlo hhi => ?_,
    toNat_slice_field 8 2 rfl fun i hlo hhi => ?_,
    toNat_slice_field 2 16 rfl fun i hlo hhi => ?_⟩ <;>
  simp (disch := omega) only [encodeCmd, BitVec.getLsbD_or, hbase i (by omega) (by omega),
    maskShift_outside, Bool.false_or, Bool.or_false]

lemma schedCmd_fields (hbase : Clear base 0 18) (pr : Huint) :
    (addrCommand (schedCmd base procid pr th cd)).toNat = cd.toNat % 256 ∧
      (addrThreadId (schedCmd base procid pr th cd)).toNat = th.toNat % 256 ∧
      (addrProcid (schedCmd base procid pr th cd)).toNat = procid.toNat % 4 := by
  refine ⟨toNat_slice_field 8 0 rfl fun i hlo hhi => ?_,
    toNat_slice_field 8 8 rfl fun i hlo hhi => ?_,
    toNat_slice_field 2 16 rfl fun i hlo hhi => ?_⟩ <;>
  simp (disch := omega) only [schedCmd, BitVec.getLsbD_or, hbase i (by omega) (by omega),
    maskShift_outside, Bool.false_or, Bool.or_false]

lemma mutexCmd_fields (hbase : Clear base 2 17) :
    (cmdNumber 6 (mutexCmd 6 base c t mid)).toNat = c.toNat % 8 ∧
      (thrNumber 6 (mutexCmd 6 base c t mid)).toNat = t.toNat % 256 ∧
      (mtxNumber 6 (mutexCmd 6 base c t mid)).toNat = mid.toNat % 64 := by
  refine ⟨toNat_slice_field 3 16 rfl fun i hlo hhi => ?_,
    toNat_slice_field 8 8 rfl fun i hlo hhi => ?_,
    toNat_slice_field 6 2 rfl fun i hlo hhi => ?_⟩ <;>
  simp (disch := omega) only [mutexCmd, BitVec.getLsbD_or, hbase i (by omega) (by omega),
    maskShift_outside, Bool.false_or, Bool.or_false]

/-- The macro masks three bits of the command, and the core looks at two of them. -/
lemma cvrSemaCmd_fields (hbase : Clear base 2 18) :
    (CondVars.getOpcode (cvrSemaCmd base c t s)).toNat = c.toNat % 4 ∧
      (CondVars.getTID (cvrSemaCmd base c t s)).toNat = t.toNat % 256 ∧
      (CondVars.getCVAR (cvrSemaCmd base c t s)).toNat = s.toNat % 64 := by
  have hcvar : (CondVars.getCVAR (cvrSemaCmd base c t s)).toNat =
      (slice (cvrSemaCmd base c t s) 24 6).toNat := by
    rw [CondVars.getCVAR, BitVec.toNat_append]
    exact Nat.zero_or _
  rw [hcvar]
  refine ⟨toNat_slice_field 3 17 rfl fun i hlo hhi => ?_,
    toNat_slice_field 8 8 rfl fun i hlo hhi => ?_,
    toNat_slice_field 6 2 rfl fun i hlo hhi => ?_⟩ <;>
  simp (disch := omega) only [cvrSemaCmd, BitVec.getLsbD_or, hbase i (by omega) (by omega),
    maskShift_outside, Bool.false_or, Bool.or_false]

lemma formTmAddr_eq (base : Word) (tid : ThreadId) :
    CondVars.formTmAddr base tid = encodeCmd base 0 (tid.setWidth 32) htCmdAddThread := by
  have hmask : ∀ tid : ThreadId, (0x00001#20 ++ 0#2 ++ tid ++ 0#2 : Word) =
      maskShift 2 16 0 ||| (maskShift 8 2 (tid.setWidth 32) ||| maskShift 5 10 htCmdAddThread) := by
    decide
  rw [CondVars.formTmAddr, hmask, encodeCmd, BitVec.or_assoc, BitVec.or_assoc]

lemma addThread_eq (hbase : Clear base 2 16) (tid : ThreadId) :
    Master.addThread base tid = CondVars.formTmAddr base tid := by
  have hcmd : ∀ k < 5, (0b00100#5).getLsbD k = (0x00001#20 ++ 0#2).getLsbD k := by decide
  have htop : ∀ k < 22, 5 ≤ k → (0x00001#20 ++ 0#2).getLsbD k = false := by decide
  apply BitVec.eq_of_getLsbD_eq
  intro i hi
  rw [Master.addThread, CondVars.formTmAddr, BitVec.getLsbD_or, BitVec.getLsbD_append,
    BitVec.getLsbD_append, BitVec.getLsbD_append,
    BitVec.getLsbD_append (x := 0x00001#20 ++ 0#2 ++ tid),
    BitVec.getLsbD_append (x := 0x00001#20 ++ 0#2)]
  by_cases hlow : i < 2
  · have hpos : 32 - 30 - 2 + i = i := by omega
    rw [if_pos hlow, if_pos hlow, getLsbD_slice, hpos, BitVec.getLsbD_zero, decide_eq_true hlow,
      Bool.true_and, Bool.or_false]
  · by_cases htid : i - 2 < 8
    · rw [if_neg hlow, if_neg hlow, if_pos htid, if_pos htid, hbase i (by omega) (by omega),
        Bool.false_or]
    · by_cases hfield : i - 2 - 8 < 5
      · rw [if_neg hlow, if_neg hlow, if_neg htid, if_neg htid, if_pos hfield, hcmd _ hfield,
          hbase i (by omega) (by omega), Bool.false_or]
      · have hpos : 32 - 0 - 17 + (i - 2 - 8 - 5) = i := by omega
        rw [if_neg hlow, if_neg htid, if_neg hfield, if_neg hlow, if_neg htid,
          htop _ (by omega) (by omega), Bool.or_false, getLsbD_slice, hpos]
        simp only [Bool.and_eq_right_iff_imp, decide_eq_true_eq]
        omega

theorem commands_round_trip :
    (∀ (base procid th cd : Huint) (l : ThreadManager.BusLines), Clear base 2 16 →
        l.bus2ipAddr = encodeCmd base procid th cd →
        l.command.toNat = cd.toNat % 32 ∧ l.threadId.toNat = th.toNat % 256 ∧
          (addrProcid l.bus2ipAddr).toNat = procid.toNat % 4) ∧
      (∀ base procid pr th cd : Huint, Clear base 0 18 →
        (addrCommand (schedCmd base procid pr th cd)).toNat = cd.toNat % 256 ∧
          (addrThreadId (schedCmd base procid pr th cd)).toNat = th.toNat % 256 ∧
          (addrProcid (schedCmd base procid pr th cd)).toNat = procid.toNat % 4) ∧
      (∀ base c t mid : Huint, Clear base 2 17 →
        (cmdNumber 6 (mutexCmd 6 base c t mid)).toNat = c.toNat % 8 ∧
          (thrNumber 6 (mutexCmd 6 base c t mid)).toNat = t.toNat % 256 ∧
          (mtxNumber 6 (mutexCmd 6 base c t mid)).toNat = mid.toNat % 64) ∧
      (∀ base c t s : Huint, Clear base 2 18 →
        (CondVars.getOpcode (cvrSemaCmd base c t s)).toNat = c.toNat % 4 ∧
          (CondVars.getTID (cvrSemaCmd base c t s)).toNat = t.toNat % 256 ∧
          (CondVars.getCVAR (cvrSemaCmd base c t s)).toNat = s.toNat % 64) ∧
      ∀ (base : Huint) (tid : ThreadId), Clear base 2 16 →
        Master.addThread base tid = encodeCmd base 0 (tid.setWidth 32) htCmdAddThread ∧
          CondVars.formTmAddr base tid = encodeCmd base 0 (tid.setWidth 32) htCmdAddThread := by
  refine ⟨fun _ _ _ _ l hbase hl => encodeCmd_fields hbase l hl, fun _ _ pr _ _ hbase =>
    schedCmd_fields hbase pr, fun _ _ _ _ hbase => mutexCmd_fields hbase, fun _ _ _ _ hbase =>
    cvrSemaCmd_fields hbase, fun base tid hbase => ⟨?_, formTmAddr_eq base tid⟩⟩
  rw [addThread_eq hbase, formTmAddr_eq]

theorem wake_address_of_thread_seven :
    Master.addThread 0x60000000 7 = encodeCmd 0x60000000 0 7 htCmdAddThread :=
  (commands_round_trip.2.2.2.2 0x60000000 7 (by
    intro i hlo hhi
    interval_cases i <;> rfl)).1

/-- The third bit of the command, which the macro lets through, is not looked at. -/
theorem cvrSemaCmd_of_command_four :
    Clear 0x84000000 2 18 ∧
      (CondVars.getOpcode (cvrSemaCmd 0x84000000 4 1 2)).toNat ≠ (4 : Huint).toNat % 8 := by
  refine ⟨?_, by decide⟩
  intro i hlo hhi
  interval_cases i <;> rfl

end Decoding

end Hthreads.Software
