import Hthreads.Software.Setup

/-! The stacks of the threads that are alive. Every thread has a slot of the same size in one
static array, whatever size it has asked for. -/

namespace Hthreads.Software

open Scheduler

variable {I : Image} {k : Kernel} {attr : Attr} {tid : ThreadId}

/-- The kernel with the attributes of the threads that are alive, after any number of setups and
destructions. -/
inductive Kernel.Run (I : Image) : Kernel → (ThreadId → Option Attr) → Prop
  | boot (k : Kernel) : Run I k fun _ => none
  | setup {k : Kernel} {live : ThreadId → Option Attr} (tid : ThreadId) (attr : Attr)
    (start arg : Huint) : Run I k live →
    Run I (k.setupThread I (tid.setWidth 32) attr start arg).2
      (if (k.setupThread I (tid.setWidth 32) attr start arg).1 = success
        then Function.update live tid (some attr) else live)
  | destroy {k : Kernel} {live : ThreadId → Option Attr} (tid : ThreadId) : Run I k live →
    Run I (k.forgetStack tid) (Function.update live tid none)

namespace Kernel

def stackStart (k : Kernel) (tid : ThreadId) : ℕ := (k.threads tid).stack.toNat
def stackEnd (k : Kernel) (tid : ThreadId) : ℕ := k.stackStart tid + (k.threads tid).stacksize.toNat
def stackPointer (k : Kernel) (tid : ThreadId) : ℕ := (k.contexts tid mbSp).toNat

end Kernel

namespace Image

def slotStart (I : Image) (tid : ThreadId) : ℕ := I.stackArray.toNat + htStackSize * tid.toNat
def slotEnd (I : Image) (tid : ThreadId) : ℕ := I.slotStart tid + htStackSize
def arrayEnd (I : Image) : ℕ := I.stackArray.toNat + 256 * htStackSize

end Image

/-- The stack of a thread and its first stack pointer lie in the slot of the thread. -/
structure Kernel.OwnSlot (I : Image) (k : Kernel) (tid : ThreadId) : Prop where
  start : I.slotStart tid ≤ k.stackStart tid
  end_le : k.stackEnd tid ≤ I.slotEnd tid
  pointer : I.slotStart tid ≤ k.stackPointer tid ∧ k.stackPointer tid < I.slotEnd tid

structure Kernel.StacksApart (I : Image) (k : Kernel) (t u : ThreadId) : Prop where
  left : k.OwnSlot I t
  right : k.OwnSlot I u
  disjoint : k.stackEnd t ≤ k.stackStart u ∨ k.stackEnd u ≤ k.stackStart t
  inside : ∀ v, v = t ∨ v = u → I.stackArray.toNat ≤ k.stackStart v ∧ k.stackEnd v ≤ I.arrayEnd

-- what the record of a thread with a stack of the kernel says
structure Kernel.Allotted (I : Image) (k : Kernel) (tid : ThreadId) (attr : Attr) : Prop where
  accepted : attr.StackAccepted
  stack : (k.threads tid).stack = I.stackOf tid
  stacksize : (k.threads tid).stacksize = attr.stackSize
  pointer : k.contexts tid mbSp = I.stackOf tid + attr.stackSize - hthreadStackReserve

lemma Kernel.Allotted.congr {k' : Kernel} (h : k.Allotted I tid attr)
    (hthread : k'.threads tid = k.threads tid) (hcontext : k'.contexts tid = k.contexts tid) :
    k'.Allotted I tid attr :=
  ⟨h.accepted, hthread ▸ h.stack, hthread ▸ h.stacksize, hcontext ▸ h.pointer⟩

lemma Kernel.Run.allotted {live : ThreadId → Option Attr} (h : Kernel.Run I k live)
    (hlive : live tid = some attr) (halloc : attr.Allocated) : k.Allotted I tid attr := by
  induction h with
  | boot k => cases hlive
  | @setup k live u a start arg hrun ih =>
    by_cases haccept : a.StackAccepted
    · rw [if_pos (setupThread_success haccept)] at hlive
      by_cases hu : tid = u
      · subst hu
        rw [Function.update_self] at hlive
        cases hlive
        obtain ⟨hstack, hsize, hpointer⟩ := setupThread_allocated halloc haccept
        exact ⟨haccept, hstack, hsize, hpointer⟩
      · rw [Function.update_of_ne hu] at hlive
        obtain ⟨hthread, hcontext⟩ := setupThread_of_ne hu
        exact (ih hlive).congr hthread hcontext
    · have hne : einval ≠ success := by decide
      rw [setupThread_refused haccept] at hlive ⊢
      rw [if_neg hne] at hlive
      exact ih hlive
  | @destroy k live u hrun ih =>
    by_cases hu : tid = u
    · rw [hu, Function.update_self] at hlive
      cases hlive
    · rw [Function.update_of_ne hu] at hlive
      exact (ih hlive).congr (Function.update_of_ne hu _ _) rfl

lemma Kernel.Allotted.stackStart_eq (h : k.Allotted I tid attr) :
    k.stackStart tid = I.slotStart tid := by
  rw [stackStart, h.stack, stackOf_toNat, Image.slotStart]

lemma Kernel.Allotted.stackEnd_eq (h : k.Allotted I tid attr) :
    k.stackEnd tid = I.slotStart tid + attr.stackSize.toNat := by
  rw [stackEnd, h.stackStart_eq, h.stacksize]

lemma slotEnd_le_arrayEnd (I : Image) (tid : ThreadId) : I.slotEnd tid ≤ I.arrayEnd := by
  have hlt := tid.isLt
  simp only [Image.slotEnd, Image.slotStart, Image.arrayEnd, htStackSize]
  omega

lemma Kernel.Allotted.stackPointer_eq (h : k.Allotted I tid attr) (halloc : attr.Allocated)
    (hsize : attr.stackSize.toNat ≤ htStackSize) :
    k.stackPointer tid = I.slotStart tid + attr.stackSize.toNat - 64 := by
  have hfit := I.stackArray_fit
  have hlt := tid.isLt
  have hmin : 128 < attr.stackSize.toNat := h.accepted halloc
  have hreserve : hthreadStackReserve.toNat = 64 := rfl
  rw [stackPointer, h.pointer, BitVec.toNat_sub, BitVec.toNat_add, stackOf_toNat, hreserve,
    Image.slotStart]
  simp only [htStackSize] at hfit hsize ⊢
  omega

lemma Kernel.Allotted.ownSlot_iff (h : k.Allotted I tid attr) (halloc : attr.Allocated) :
    k.OwnSlot I tid ↔ attr.stackSize.toNat ≤ htStackSize := by
  constructor
  · intro hown
    have hend := hown.end_le
    rw [h.stackEnd_eq, Image.slotEnd] at hend
    omega
  · intro hsize
    have hmin : 128 < attr.stackSize.toNat := h.accepted halloc
    refine ⟨h.stackStart_eq.ge, ?_, ?_⟩
    · rw [h.stackEnd_eq, Image.slotEnd]
      omega
    · rw [h.stackPointer_eq halloc hsize, Image.slotEnd]
      omega

lemma slotEnd_le_of_lt {t u : ThreadId} (h : t.toNat < u.toNat) : I.slotEnd t ≤ I.slotStart u := by
  simp only [Image.slotEnd, Image.slotStart, htStackSize]
  omega

lemma Kernel.OwnSlot.apart {t u : ThreadId} (ht : k.OwnSlot I t) (hu : k.OwnSlot I u)
    (hne : t ≠ u) : k.StacksApart I t u := by
  refine ⟨ht, hu, ?_, fun v hv => ?_⟩
  · have hnat : t.toNat ≠ u.toNat := fun heq => hne (BitVec.eq_of_toNat_eq heq)
    rcases Nat.lt_or_gt_of_ne hnat with hlt | hlt
    · exact .inl (ht.end_le.trans ((slotEnd_le_of_lt hlt).trans hu.start))
    · exact .inr (hu.end_le.trans ((slotEnd_le_of_lt hlt).trans ht.start))
  · have hown : k.OwnSlot I v := by
      rcases hv with rfl | rfl
      · exact ht
      · exact hu
    exact ⟨(Nat.le_add_right _ _).trans hown.start, hown.end_le.trans (slotEnd_le_arrayEnd I v)⟩

/-- The functions of the attribute and the setup of the thread agree on the size. -/
def Attr.SameRule (I : Image) (k : Kernel) (tid : ThreadId) (start arg : Huint) (attr : Attr) :
    Prop :=
  (attr.setStackSize attr.stackSize).1 = success ↔
    (k.setupThread I (tid.setWidth 32) attr start arg).1 = success

lemma Attr.sameRule_iff (halloc : attr.Allocated) (start arg : Huint) :
    attr.SameRule I k tid start arg ↔ attr.stackSize ≠ hthreadStackMin := by
  rw [SameRule, setStackSize_success_iff, setupThread_success_iff, StackAccepted]
  simp only [halloc, forall_const, BitVec.le_def, BitVec.lt_def, ne_eq, BitVec.toNat_eq]
  omega

theorem stacks_apart_iff (I : Image) :
    (∀ k live, Kernel.Run I k live → ∀ t u, t ≠ u → ∀ a c, live t = some a → live u = some c →
      a.Allocated → c.Allocated → a.Reachable → c.Reachable →
        (k.StacksApart I t u ↔ a.stackSize.toNat ≤ htStackSize ∧ c.stackSize.toNat ≤ htStackSize)) ∧
    ∀ a : Attr, a.Reachable → a.Allocated → ∀ k tid start arg,
      (a.SameRule I k tid start arg ↔ a.stackSize ≠ hthreadStackMin) := by
  refine ⟨fun k live hrun t u hne a c ha hc halloc hcalloc _ _ => ?_,
    fun a _ halloc k tid start arg => a.sameRule_iff halloc start arg⟩
  have hat := hrun.allotted ha halloc
  have hcu := hrun.allotted hc hcalloc
  rw [← hat.ownSlot_iff halloc, ← hcu.ownSlot_iff hcalloc]
  exact ⟨fun h => ⟨h.left, h.right⟩, fun h => h.1.apart h.2 hne⟩

section Examples

def smallImage : Image where
  threads := 0x1000
  contexts := 0x8000
  stackArray := 0x100000
  bootstrapThread := 0x400
  cacheBits := 0
  stackArray_pos := by decide
  stackArray_fit := by decide

def Kernel.blank : Kernel := ⟨fun _ => ⟨false, 0, 0, 0, 0, 0, 0⟩, fun _ _ => 0, []⟩

-- thread 1 asks for a stack of this size, and thread 2 takes the default
def Kernel.twoThreads (size : Huint) : Kernel :=
  ((Kernel.blank.setupThread smallImage 1 (Attr.init.setStackSize size).2 0x500 0).2.setupThread
    smallImage 2 .init 0x500 0).2

lemma run_twoThreads (size : Huint) (h : hthreadStackMin < size) :
    Kernel.Run smallImage (Kernel.twoThreads size)
      (Function.update (Function.update (fun _ => none) 1 (some (Attr.init.setStackSize size).2)) 2
        (some .init)) := by
  have hsize : (Attr.init.setStackSize size).2 = { Attr.init with stackSize := size } := by
    rw [Attr.setStackSize, if_neg (BitVec.not_lt.mpr (BitVec.le_of_lt h))]
  have hone : (Attr.init.setStackSize size).2.StackAccepted := fun _ => by rw [hsize]; exact h
  have htwo : Attr.init.StackAccepted := by decide
  have hfirst := Kernel.Run.setup (I := smallImage) 1 (Attr.init.setStackSize size).2 0x500 0
    (.boot Kernel.blank)
  rw [if_pos (setupThread_success hone)] at hfirst
  have hsecond := Kernel.Run.setup 2 .init 0x500 0 hfirst
  rwa [if_pos (setupThread_success htwo)] at hsecond

lemma reachable_setStackSize (size : Huint) : (Attr.init.setStackSize size).2.Reachable :=
  .call (.setStackSize size) .init

theorem stacks_apart_of_small_sizes :
    (Kernel.twoThreads 4096).StacksApart smallImage 1 2 ∧
      (Attr.init.setStackSize 4096).2.SameRule smallImage .blank 1 0x500 0 := by
  have halloc : (Attr.init.setStackSize 4096).2.Allocated := ⟨rfl, rfl⟩
  have hreach := reachable_setStackSize 4096
  constructor
  · exact ((stacks_apart_iff smallImage).1 _ _ (run_twoThreads 4096 (by decide)) 1 2 (by decide)
      _ .init rfl rfl halloc ⟨rfl, rfl⟩ hreach .init).mpr (by decide)
  · exact ((stacks_apart_iff smallImage).2 _ hreach halloc .blank 1 0x500 0).mpr (by decide)

/-- A size of 32 kilobytes is taken, and reaches into the slot of the next thread; the smallest
size is taken for the attribute, but not for the thread. -/
theorem large_stack_overlaps :
    (¬ ∀ k live, Kernel.Run smallImage k live → ∀ t u, t ≠ u → ∀ a c, live t = some a →
      live u = some c → a.Allocated → c.Allocated → a.Reachable → c.Reachable →
        k.StacksApart smallImage t u) ∧
    ¬ ∀ a : Attr, a.Reachable → a.Allocated → a.SameRule smallImage .blank 1 0x500 0 := by
  constructor
  · intro hclaim
    have happart := hclaim _ _ (run_twoThreads 0x8000 (by decide)) 1 2 (by decide)
      (Attr.init.setStackSize 0x8000).2 .init rfl rfl ⟨rfl, rfl⟩ ⟨rfl, rfl⟩
      (reachable_setStackSize 0x8000) .init
    have hend := happart.left.end_le
    exact absurd hend (by decide)
  · intro hclaim
    have hrule := hclaim _ (reachable_setStackSize 128) ⟨rfl, rfl⟩
    exact (Attr.sameRule_iff ⟨rfl, rfl⟩ _ _).mp hrule rfl

end Examples

end Hthreads.Software
