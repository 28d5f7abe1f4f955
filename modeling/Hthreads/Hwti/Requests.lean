import Hthreads.Hwti.Command
import Hthreads.Software.Encodings

/-! The bus accesses that the requests of a hardware thread lead to, against those of the kernel. -/

namespace Hthreads.Hwti

open Library.BitFields Scheduler Software

def htMutexOwner : Huint := 3
def htMutexKind : Huint := 4
def htMutexCount : Huint := 5

def htCmdOwner : Huint := 0x00
def htCmdSignal : Huint := 0x01
def htCmdWait : Huint := 0x02
def htCmdBroadcast : Huint := 0x03

def htCmdClearThread : Huint := 0x00
def htCmdJoinThread : Huint := 0x01
def htCmdDetachThread : Huint := 0x02
def htCmdExitThread : Huint := 0x07

structure BusAccess where
  write : Bool
  addr : Word
  deriving DecidableEq

section Kernel

variable (b : Bases) (tid other : ThreadId)

def mutexAccess (write : Bool) (c : Huint) (t : ThreadId) (mtx : BitVec 6) : BusAccess :=
  ⟨write, Software.mutexCmd 6 b.mtx c (t.setWidth 32) (mtx.setWidth 32)⟩

def condvarAccess (c : Huint) (t : ThreadId) (cdv : BitVec 6) : BusAccess :=
  ⟨false, cvrSemaCmd b.cdv c (t.setWidth 32) (cdv.setWidth 32)⟩

-- on processor 0
def managerAccess (c : Huint) (t : ThreadId) : BusAccess :=
  ⟨false, encodeCmd b.mng 0 (t.setWidth 32) c⟩

/-- What the kernel does for thread `tid`. The operations that are not about a thread have `other`
in its place, a 0 in `hardware.h`. -/
def kernelAccess : Request → BusAccess
  | .mtxLock mtx => mutexAccess b false htMutexLock tid mtx
  | .mtxUnlock mtx => mutexAccess b false htMutexUnlock tid mtx
  | .mtxTrylock mtx => mutexAccess b false htMutexTry tid mtx
  | .mtxOwner mtx => mutexAccess b false htMutexOwner other mtx
  | .mtxKind mtx => mutexAccess b false htMutexKind other mtx
  | .mtxSetkind mtx _ => mutexAccess b true htMutexKind other mtx
  | .mtxCount mtx => mutexAccess b false htMutexCount other mtx
  | .cdvOwner cdv => condvarAccess b htCmdOwner other cdv
  | .cdvWait cdv => condvarAccess b htCmdWait tid cdv
  | .cdvSignal cdv => condvarAccess b htCmdSignal other cdv
  | .cdvBroadcast cdv => condvarAccess b htCmdBroadcast other cdv
  | .thrJoin t => managerAccess b htCmdJoinThread t
  | .thrExit _ => managerAccess b htCmdExitThread tid
  | .thrClear t => managerAccess b htCmdClearThread t
  | .thrDetach => managerAccess b htCmdDetachThread tid
  | .thrAdd t => managerAccess b htCmdAddThread t

end Kernel

def Drive.access (d : Drive) : Option BusAccess :=
  if d.rd then some ⟨false, d.addr⟩ else if d.wr then some ⟨true, d.addr⟩ else none

def requested (b : Bases) (i : Inputs) (r : Request) : Option BusAccess :=
  (controller b { i with opcodeData := r.encode, opcodeExists := true, resultFull := false }
    ⟨.idle, false⟩).2.access

section Addresses

variable {b : Bases} {tid : ThreadId} {cmd : BitVec 4} {arg : BitVec 24} {k : ℕ}

/-- A field that is put into a clear place, as the macros do it. -/
lemma insert_eq_or (first shift bits : ℕ) {x : BitVec k} {v : Word}
    (hfirst : first + k + shift = 32)
    (hx : x.toNat < 2 ^ bits) (hclear : ∀ i, shift ≤ i → i < shift + k → v.getLsbD i = false) :
    insert first x v = v ||| maskShift bits shift (x.setWidth 32) := by
  apply BitVec.eq_of_getLsbD_eq
  intro i hi
  rw [getLsbD_insert first x v (by omega), BitVec.getLsbD_or, getLsbD_maskShift _ _ _ hi]
  by_cases hfield : shift ≤ i ∧ i < shift + k
  · have hpos : i - (32 - first - k) = i - shift := by omega
    rw [if_pos (by omega), hpos, hclear i hfield.1 hfield.2, Bool.false_or, BitVec.getLsbD_setWidth,
      decide_eq_true (show i - shift < 32 by omega), Bool.true_and]
    by_cases hbits : i < shift + bits
    · rw [decide_eq_true ⟨hfield.1, hbits⟩, Bool.true_and]
    · have hzero : x.getLsbD (i - shift) = false :=
        Nat.testBit_lt_two_pow (hx.trans_le (Nat.pow_le_pow_right (by omega) (by omega)))
      rw [hzero, Bool.and_false]
  · rw [if_neg (by omega)]
    by_cases hshift : shift ≤ i
    · have hge : k ≤ i - shift := by omega
      rw [BitVec.getLsbD_setWidth, BitVec.getLsbD_of_ge x _ hge, Bool.and_false, Bool.and_false,
        Bool.or_false]
    · rw [decide_eq_false (by omega), Bool.false_and, Bool.or_false]

lemma clear_or {v x : Word} {bits shift i : ℕ} (h : i < shift ∨ shift + bits ≤ i) (hi : i < 32)
    (hv : v.getLsbD i = false) : (v ||| maskShift bits shift x).getLsbD i = false := by
  rw [BitVec.getLsbD_or, hv, maskShift_outside h hi, Bool.or_false]

lemma or_reverse (v x y z : Word) : v ||| x ||| y ||| z = v ||| z ||| y ||| x := by
  ac_rfl

lemma mutexCmd_eq (hcmd : cmd.toNat < 2 ^ 3) : mutexCmd b tid arg cmd =
    Software.mutexCmd 6 b.mtx (cmd.setWidth 32) (tid.setWidth 32)
      ((slice arg 18 6).setWidth 32) := by
  have hbase : ∀ i, 2 ≤ i → i < 20 → b.mtx.getLsbD i = false := b.mtx_clear
  rw [mutexCmd, insert_eq_or 24 2 6 rfl (slice arg 18 6).isLt fun i hlo hhi =>
      hbase i hlo (by omega),
    insert_eq_or 16 8 8 rfl tid.isLt fun i hlo hhi =>
      clear_or (by omega) (by omega) (hbase i (by omega) (by omega)),
    insert_eq_or 12 16 3 rfl hcmd fun i hlo hhi => clear_or (by omega) (by omega)
      (clear_or (by omega) (by omega) (hbase i (by omega) (by omega))), Software.mutexCmd]
  exact or_reverse _ _ _ _

lemma condvCmd_eq (hcmd : cmd.toNat < 2 ^ 3) : condvCmd b tid arg cmd =
    cvrSemaCmd b.cdv (cmd.setWidth 32) (tid.setWidth 32) ((slice arg 18 6).setWidth 32) := by
  have hbase : ∀ i, 2 ≤ i → i < 21 → b.cdv.getLsbD i = false := b.cdv_clear
  rw [condvCmd, insert_eq_or 24 2 6 rfl (slice arg 18 6).isLt fun i hlo hhi =>
      hbase i hlo (by omega),
    insert_eq_or 16 8 8 rfl tid.isLt fun i hlo hhi =>
      clear_or (by omega) (by omega) (hbase i (by omega) (by omega)),
    insert_eq_or 11 17 3 rfl hcmd fun i hlo hhi => clear_or (by omega) (by omega)
      (clear_or (by omega) (by omega) (hbase i (by omega) (by omega))), cvrSemaCmd]
  exact or_reverse _ _ _ _

lemma managCmd_eq : managCmd b tid cmd = encodeCmd b.mng 0 (tid.setWidth 32) (cmd.setWidth 32) := by
  have hbase : ∀ i, 2 ≤ i → i < 18 → b.mng.getLsbD i = false := b.mng_clear
  have hprocid : maskShift 2 16 0 = 0 := by decide
  rw [managCmd, insert_eq_or 22 2 8 rfl tid.isLt fun i hlo hhi => hbase i hlo (by omega),
    insert_eq_or 18 10 5 rfl (cmd.isLt.trans (by norm_num)) fun i hlo hhi =>
      clear_or (by omega) (by omega) (hbase i (by omega) (by omega)),
    encodeCmd, hprocid]
  rw [show b.mng ||| 0 = b.mng from BitVec.or_zero]

end Addresses

section Fields

variable {b : Bases} {tid t t' : ThreadId} {mtx cdv : BitVec 6} {c c' : Huint} {write : Bool}

lemma toNat_setWidth_tid (t : ThreadId) : (t.setWidth 32).toNat % 256 = t.toNat := by
  rw [BitVec.toNat_setWidth]
  omega

lemma mutexAccess_inj (h : mutexAccess b write c t mtx = mutexAccess b write c t' mtx) :
    t = t' := by
  have hbase : Clear b.mtx 2 17 := fun i hlo hhi => b.mtx_clear i hlo (by omega)
  have haddr := congrArg (SyncManager.thrNumber 6) (congrArg BusAccess.addr h)
  have hthr : ∀ t : ThreadId, (SyncManager.thrNumber 6 (mutexAccess b write c t mtx).addr).toNat =
      t.toNat := fun t => (mutexCmd_fields hbase).2.1.trans (toNat_setWidth_tid t)
  exact BitVec.eq_of_toNat_eq ((hthr t).symm.trans ((congrArg BitVec.toNat haddr).trans (hthr t')))

lemma condvarAccess_inj (h : condvarAccess b c t cdv = condvarAccess b c t' cdv) : t = t' := by
  have hbase : Clear b.cdv 2 18 := fun i hlo hhi => b.cdv_clear i hlo (by omega)
  have haddr := congrArg CondVars.getTID (congrArg BusAccess.addr h)
  have hthr : ∀ t : ThreadId, (CondVars.getTID (condvarAccess b c t cdv).addr).toNat = t.toNat :=
    fun t => (cvrSemaCmd_fields hbase).2.1.trans (toNat_setWidth_tid t)
  exact BitVec.eq_of_toNat_eq ((hthr t).symm.trans ((congrArg BitVec.toNat haddr).trans (hthr t')))

def managerLines (a : BusAccess) : ThreadManager.BusLines :=
  ⟨false, a.addr, 0, true, false, false, false, false⟩

lemma managerAccess_fields (b : Bases) (c : Huint) (t : ThreadId) :
    (managerLines (managerAccess b c t)).command.toNat = c.toNat % 32 ∧
      (managerLines (managerAccess b c t)).threadId = t := by
  have hbase : Clear b.mng 2 16 := b.mng_clear
  obtain ⟨hcmd, hthr, -⟩ := encodeCmd_fields hbase (managerLines (managerAccess b c t)) rfl
  exact ⟨hcmd, BitVec.eq_of_toNat_eq (hthr.trans (toNat_setWidth_tid t))⟩

lemma managerAccess_inj (h : managerAccess b c t = managerAccess b c' t') :
    c.toNat % 32 = c'.toNat % 32 ∧ t = t' := by
  obtain ⟨hcmd, hthr⟩ := managerAccess_fields b c t
  obtain ⟨hcmd', hthr'⟩ := managerAccess_fields b c' t'
  rw [h] at hcmd hthr
  exact ⟨hcmd.symm.trans hcmd', hthr.symm.trans hthr'⟩

end Fields

section Decoding

variable {b : Bases} {i : Inputs} {mtx cdv : BitVec 6} {knd : BitVec 2}
  {cmd : BitVec 8} {arg : Word}
  {r : Request} {c : Huint}

lemma getLsbD_mtxCmd (mtx : BitVec 6) (knd : BitVec 2) (cmd : BitVec 8) (k : ℕ) :
    (hwtiMtxCmd mtx knd cmd).getLsbD k =
      if k < 32 then false else if k < 38 then mtx.getLsbD (k - 32)
      else if k < 40 then knd.getLsbD (k - 38) else if k < 56 then false
      else cmd.getLsbD (k - 56) := by
  simp only [hwtiMtxCmd, BitVec.getLsbD_append, BitVec.getLsbD_zero]
  grind

lemma getLsbD_thrCmd (cmd : BitVec 8) (arg : Word) (k : ℕ) :
    (hwtiThrCmd cmd arg).getLsbD k =
      if k < 32 then arg.getLsbD k else if k < 56 then false else cmd.getLsbD (k - 56) := by
  simp only [hwtiThrCmd, BitVec.getLsbD_append, BitVec.getLsbD_zero]
  grind

lemma mtxCmd_fields (mtx : BitVec 6) (knd : BitVec 2) (cmd : BitVec 8) :
    opdev (hwtiMtxCmd mtx knd cmd) = slice cmd 0 4 ∧
      opcmd (hwtiMtxCmd mtx knd cmd) = slice cmd 4 4 ∧
      slice (oparg (hwtiMtxCmd mtx knd cmd)) 18 6 = mtx := by
  refine ⟨?_, ?_, ?_⟩ <;> apply BitVec.eq_of_getLsbD_eq <;> intro k hk
  · simp only [opdev, getLsbD_slice, getLsbD_mtxCmd]
    grind
  · simp only [opcmd, getLsbD_slice, getLsbD_mtxCmd]
    grind
  · simp only [oparg, getLsbD_slice, getLsbD_mtxCmd]
    grind

lemma thrCmd_fields (cmd : BitVec 8) (arg : Word) :
    opdev (hwtiThrCmd cmd arg) = slice cmd 0 4 ∧ opcmd (hwtiThrCmd cmd arg) = slice cmd 4 4 ∧
      slice (oparg (hwtiThrCmd cmd arg)) 16 8 = 0 := by
  refine ⟨?_, ?_, ?_⟩ <;> apply BitVec.eq_of_getLsbD_eq <;> intro k hk
  · simp only [opdev, getLsbD_slice, getLsbD_thrCmd]
    grind
  · simp only [opcmd, getLsbD_slice, getLsbD_thrCmd]
    grind
  · simp only [oparg, getLsbD_slice, getLsbD_thrCmd]
    grind

lemma requested_mtx (cmd : BitVec 8) (c : Huint) (hr : r.encode = hwtiMtxCmd mtx 0 cmd)
    (h : slice cmd 0 4 = 0 ∧ slice cmd 4 4 ≠ 6 ∧ (slice cmd 4 4).toNat < 2 ^ 3 ∧
      (slice cmd 4 4).setWidth 32 = c) :
    requested b i r = some (mutexAccess b false c i.tid mtx) := by
  obtain ⟨hdev, hcmd, hlt, hc⟩ := h
  obtain ⟨hopdev, hopcmd, hoparg⟩ := mtxCmd_fields mtx 0 cmd
  simp only [requested, controller, hr, and_self, if_true, idle, hopdev, hopcmd, hdev, if_neg hcmd,
    Drive.access, mutexCmd_eq hlt, hoparg, hc, mutexAccess]

lemma requested_setkind : requested b i (.mtxSetkind mtx knd) =
    some (mutexAccess b true htMutexKind i.tid mtx) := by
  obtain ⟨hopdev, hopcmd, hoparg⟩ := mtxCmd_fields mtx knd hthreadMtxSetkind
  have hdev : slice hthreadMtxSetkind 0 4 = 0 := by decide
  have hcmd : slice hthreadMtxSetkind 4 4 = 6 := by decide
  have hkind : (4 : BitVec 4).setWidth 32 = htMutexKind := by decide
  have hlt : (4 : BitVec 4).toNat < 2 ^ 3 := by decide
  simp only [requested, controller, Request.encode, hwtiMtxSetkind, and_self, if_true, idle, hopdev,
    hopcmd, hdev, hcmd, Drive.access, mutexCmd_eq hlt, hoparg, hkind, mutexAccess,
    Bool.false_eq_true, if_false]

lemma requested_cdv (cmd : BitVec 8) (c : Huint) (hr : r.encode = hwtiCdvCmd cdv cmd)
    (h : slice cmd 0 4 = 1 ∧ (slice cmd 4 4).toNat < 2 ^ 3 ∧ (slice cmd 4 4).setWidth 32 = c) :
    requested b i r = some (condvarAccess b c i.tid cdv) := by
  obtain ⟨hdev, hlt, hc⟩ := h
  obtain ⟨hopdev, hopcmd, hoparg⟩ := mtxCmd_fields cdv 0 cmd
  have hne : ¬ (1 : BitVec 4) = 0 := by decide
  rw [show hwtiCdvCmd cdv cmd = hwtiMtxCmd cdv 0 cmd from rfl] at hr
  simp only [requested, controller, hr, and_self, if_true, idle, hopdev, hopcmd, hdev, if_neg hne,
    Drive.access, condvCmd_eq hlt, hoparg, hc, condvarAccess]

/-- The thread is the own one or thread 0: the one in the word is not where the controller looks. -/
lemma requested_thr (cmd : BitVec 8) (c : Huint) (hr : r.encode = hwtiThrCmd cmd arg)
    (h : slice cmd 0 4 = 2 ∧ (slice cmd 4 4).setWidth 32 = c) : requested b i r =
      some (managerAccess b c (if slice cmd 4 4 = 7 ∨ slice cmd 4 4 = 2 then i.tid else 0)) := by
  obtain ⟨hdev, hc⟩ := h
  obtain ⟨hopdev, hopcmd, hoparg⟩ := thrCmd_fields cmd arg
  have hne : ¬ (2 : BitVec 4) = 0 := by decide
  have hne' : ¬ (2 : BitVec 4) = 1 := by decide
  simp only [requested, controller, hr, and_self, if_true, idle, hopdev, hopcmd, hdev, if_neg hne,
    if_neg hne', Drive.access, managCmd_eq, hoparg, hc, managerAccess]

end Decoding

/-- The requests whose access is that of the kernel, when the kernel has put `other` in the place of
the thread where it has none to name. -/
def Request.Reaches (tid other : ThreadId) : Request → Prop
  | .mtxOwner _ | .mtxKind _ | .mtxSetkind _ _ | .mtxCount _ => other = tid
  | .cdvOwner _ | .cdvSignal _ | .cdvBroadcast _ => other = tid
  | .thrJoin _ => False
  | .thrClear t | .thrAdd t => t = 0
  | _ => True

section Requests

variable {b : Bases} {i : Inputs} {tid other : ThreadId} {mtx cdv : BitVec 6} {c : Huint}
  {write : Bool}

lemma mutexAccess_iff :
    some (mutexAccess b write c tid mtx) = some (mutexAccess b write c other mtx) ↔
      other = tid := by
  refine ⟨fun h => (mutexAccess_inj (Option.some.inj h)).symm, fun h => ?_⟩
  rw [h]

lemma condvarAccess_iff :
    some (condvarAccess b c tid cdv) = some (condvarAccess b c other cdv) ↔ other = tid := by
  refine ⟨fun h => (condvarAccess_inj (Option.some.inj h)).symm, fun h => ?_⟩
  rw [h]

lemma managerAccess_iff : some (managerAccess b c tid) = some (managerAccess b c other) ↔
    other = tid := by
  refine ⟨fun h => (managerAccess_inj (Option.some.inj h)).2.symm, fun h => ?_⟩
  rw [h]

end Requests

/-- The access of the controller is that of the kernel for the same operation on the same object,
but for a join and for a request about another thread than 0. -/
theorem hwti_request_reaches_iff (b : Bases) (i : Inputs) (other : ThreadId) (r : Request) :
    requested b i r = some (kernelAccess b i.tid other r) ↔ r.Reaches i.tid other := by
  cases r with
  | mtxLock mtx =>
    exact iff_of_true (requested_mtx hthreadMtxLock htMutexLock rfl (by decide)) trivial
  | mtxUnlock mtx =>
    exact iff_of_true (requested_mtx hthreadMtxUnlock htMutexUnlock rfl (by decide)) trivial
  | mtxTrylock mtx =>
    exact iff_of_true (requested_mtx hthreadMtxTrylock htMutexTry rfl (by decide)) trivial
  | mtxOwner mtx =>
    rw [requested_mtx hthreadMtxOwner htMutexOwner rfl (by decide)]
    exact mutexAccess_iff
  | mtxKind mtx =>
    rw [requested_mtx hthreadMtxKind htMutexKind rfl (by decide)]
    exact mutexAccess_iff
  | mtxSetkind mtx knd =>
    rw [requested_setkind]
    exact mutexAccess_iff
  | mtxCount mtx =>
    rw [requested_mtx hthreadMtxCount htMutexCount rfl (by decide)]
    exact mutexAccess_iff
  | cdvOwner cdv =>
    rw [requested_cdv hthreadCdvOwner htCmdOwner rfl (by decide)]
    exact condvarAccess_iff
  | cdvWait cdv =>
    exact iff_of_true (requested_cdv hthreadCdvWait htCmdWait rfl (by decide)) trivial
  | cdvSignal cdv =>
    rw [requested_cdv hthreadCdvSignal htCmdSignal rfl (by decide)]
    exact condvarAccess_iff
  | cdvBroadcast cdv =>
    rw [requested_cdv hthreadCdvBroad htCmdBroadcast rfl (by decide)]
    exact condvarAccess_iff
  | thrJoin t =>
    rw [requested_thr hthreadThrExit htCmdExitThread rfl (by decide)]
    refine iff_of_false (fun h => ?_) id
    exact absurd (managerAccess_inj (Option.some.inj h)).1 (by decide)
  | thrExit arg =>
    exact iff_of_true (requested_thr hthreadThrExit htCmdExitThread rfl (by decide)) trivial
  | thrClear t =>
    rw [requested_thr hthreadThrClear htCmdClearThread rfl (by decide)]
    exact managerAccess_iff
  | thrDetach =>
    exact iff_of_true (requested_thr hthreadThrDetach htCmdDetachThread rfl (by decide)) trivial
  | thrAdd t =>
    rw [requested_thr hthreadThrAdd htCmdAddThread rfl (by decide)]
    exact managerAccess_iff

-- a controller of thread 1 that has nothing else to see
def threadOne : Inputs where
  tid := 1
  arg := 0
  opcodeData := 0
  opcodeExists := false
  resultFull := false
  memrd := false
  memwr := false
  command := 0
  ack := false
  last := false
  results := 0

/-- Thread 1 asks to join thread 5, and has itself exit; it asks to clear thread 5, and thread 0 is
cleared. -/
theorem hwti_requests_of_join_and_clear :
    requested .default threadOne (.thrJoin 5) =
        some (kernelAccess .default 1 1 (.thrExit 5)) ∧
      requested .default threadOne (.thrJoin 5) ≠
        some (kernelAccess .default 1 1 (.thrJoin 5)) ∧
      requested .default threadOne (.thrClear 5) =
        some (kernelAccess .default 1 1 (.thrClear 0)) ∧
      requested .default threadOne (.thrClear 5) ≠
        some (kernelAccess .default 1 1 (.thrClear 5)) := by
  refine ⟨by decide, by decide, by decide, by decide⟩

end Hthreads.Hwti
