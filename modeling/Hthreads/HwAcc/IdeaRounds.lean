import Hthreads.HwAcc.IdeaCipher
import Hthreads.Library.Cycles

/-! What the core makes of a block: the rounds as it runs through its states. -/

namespace Hthreads.HwAcc.Idea

open Library

section Runs

variable {inputs : ℕ → ChanInput} {st : State} {a b : Word → Word} {da db : Word} {C : Bram 32 32}
  {s : Core} {ch : Channel}

def atState (st : State) (a : Word → Word) (da : Word) (b : Word → Word) (db : Word)
    (C : Bram 32 32) (s : Core) (ch : Channel) : System :=
  ⟨{ s with currentState := st }, ⟨a, da⟩, ⟨b, db⟩, C, ch⟩

lemma leads {s t : System} (drive : Drive) (hcomb : ∀ i, comb (wires i s) s.core = (t.core, drive))
    (hnext : ∀ i, (⟨t.core, s.vectorA.clock drive.vectorA, s.vectorB.clock drive.vectorB,
      s.vectorC.clock drive.vectorC, s.chan1.clock i drive.chan1⟩ : System) = t) :
    Leads clock inputs s t := by
  refine .of_step fun i => ?_
  rw [← hnext i]
  simp only [clock, hcomb]

lemma leads_regs {next : State} {t : Core}
    (hcomb : ∀ w, comb w { s with currentState := st } = ({ t with currentState := next }, {})) :
    Leads clock inputs (atState st a da b db C s ch) (atState next a da b db C t ch) :=
  leads {} (fun _ => hcomb _) fun _ => rfl

lemma read_key (hret : s.ret = 0) (m : ℕ) : b (wordAddr (s.ret + .ofNat 32 m)) = keyAt b m := by
  rw [hret, zero_add]
  rfl

lemma leads_ask (next : State) (m : ℕ) (hret : s.ret = 0)
    (hcomb : ∀ w, comb w { s with currentState := st } = readKey (.ofNat 32 m) next s) :
    Leads clock inputs (atState st a da b db C s ch) (atState next a da b (keyAt b m) C s ch) := by
  rw [← read_key hret]
  exact leads { vectorB := .read (wordAddr (s.ret + .ofNat 32 m)) } (fun _ => hcomb _) fun _ => rfl

lemma leads_take {next : State} {reg : KeyReg}
    (hcomb : ∀ w, comb w { s with currentState := st } = takeKey reg next w s) :
    Leads clock inputs (atState st a da b db C s ch)
      (atState next a da b db C { s with z := Function.update s.z reg db } ch) :=
  leads {} (fun _ => hcomb _) fun _ => rfl

-- the keys come in one by one: the state that takes a key is followed by the one that asks for the
-- next
def takes (k j : ℕ) : State :=
  [.extra5, .extra6, .extra7, .extra8, .extra9, .extra10, .extra11, .extra12, .extra13, .extra14,
    .extra15, .extra16, .extra17, .extra18, .extra19, .extra20, .extra21, .extra22,
    .extra23, .extra24,
    .extra25, .extra26, .extra27, .extra28, .extra29, .extra30, .extra31, .extra32,
    .extra33, .extra34,
    .extra35, .extra36, .extra37, .extra38, .extra39, .extra40, .extra41, .extra42,
    .extra43, .extra44,
    .extra45, .extra46, .extra47, .extra48, .extra49, .extra50, .extra51, .extra52,
    .extra53, .extra54,
    .extra55, .extra56, .extra57, .extra58, .extra59, .extra60, .extra61, .extra62,
    .extra63, .extra64, .extra65, .extra66, .extra67, .extra68].getD (8 * k + j) .reset

def asks (k j : ℕ) : State :=
  [.r1_1, .r1_2, .r1_3, .r1_4, .r1_5, .r1_6, .r1_7, .r2_1, .r2_2, .r2_3, .r2_4, .r2_5, .r2_6, .r2_7,
    .r3_1, .r3_2, .r3_3, .r3_4, .r3_5, .r3_6, .r3_7, .r4_1, .r4_2, .r4_3, .r4_4,
    .r4_5, .r4_6, .r4_7,
    .r5_1, .r5_2, .r5_3, .r5_4, .r5_5, .r5_6, .r5_7, .r6_1, .r6_2, .r6_3, .r6_4,
    .r6_5, .r6_6, .r6_7,
    .r7_1, .r7_2, .r7_3, .r7_4, .r7_5, .r7_6, .r7_7, .r8_1, .r8_2, .r8_3, .r8_4, .r8_5, .r8_6,
    .r8_7].getD (7 * k + j) .reset

def keyReg (j : ℕ) : KeyReg :=
  [.z1_r, .z2_r, .z3_r, .z4_r, .z5_r, .z6_r, .z7_r].getD j .z8_r

def KeyReg.index : KeyReg → ℕ
  | .z1_r => 0
  | .z2_r => 1
  | .z3_r => 2
  | .z4_r => 3
  | .z5_r => 4
  | .z6_r => 5
  | .z7_r => 6
  | .z8_r => 7

lemma keyReg_index (reg : KeyReg) : keyReg reg.index = reg := by
  cases reg <;> rfl

lemma index_keyReg {j : ℕ} (hj : j < 8) : (keyReg j).index = j := by
  interval_cases j <;> rfl

variable {k j : ℕ}

lemma comb_startRound (w : Wires) (hk : k < 8) (hr : s.r = .ofNat 32 (k + 1)) :
    comb w { s with currentState := .startRound } = readKey (.ofNat 32 (8 * k)) (takes k 0) s := by
  have hcomb : comb w { s with currentState := .startRound, r := .ofNat 32 (k + 1) } =
      readKey (.ofNat 32 (8 * k)) (takes k 0) { s with r := .ofNat 32 (k + 1) } := by
    interval_cases k <;> rfl
  rwa [← hr] at hcomb

lemma comb_takes (w : Wires) (s : Core) (hk : k < 8) (hj : j < 7) :
    comb w { s with currentState := takes k j } = takeKey (keyReg j) (asks k j) w s := by
  interval_cases k <;> interval_cases j <;> rfl

lemma comb_takes_last (w : Wires) (s : Core) (hk : k < 8) :
    comb w { s with currentState := takes k 7 } = takeKey (keyReg 7) .roundPart0 w s := by
  interval_cases k <;> rfl

lemma comb_asks (w : Wires) (s : Core) (hk : k < 8) (hj : j < 7) :
    comb w { s with currentState := asks k j } =
      readKey (.ofNat 32 (8 * k + (j + 1))) (takes k (j + 1)) s := by
  interval_cases k <;> interval_cases j <;> rfl

-- the registers when `j` keys of round `k` are in
def taken (b : Word → Word) (k j : ℕ) (z : KeyReg → Word) (reg : KeyReg) : Word :=
  if reg.index < j then keyAt b (8 * k + reg.index) else z reg

lemma taken_zero (b : Word → Word) (k : ℕ) (z : KeyReg → Word) : taken b k 0 z = z := by
  funext reg
  exact if_neg (Nat.not_lt_zero _)

lemma update_taken (b : Word → Word) (k : ℕ) (z : KeyReg → Word) (hj : j < 8) :
    Function.update (taken b k j z) (keyReg j) (keyAt b (8 * k + j)) = taken b k (j + 1) z := by
  funext reg
  by_cases hreg : reg = keyReg j
  · rw [hreg, Function.update_self, taken, index_keyReg hj, if_pos (Nat.lt_succ_self j)]
  · have hne : reg.index ≠ j := fun h => hreg (by rw [← h, keyReg_index])
    have hiff : reg.index < j + 1 ↔ reg.index < j := by omega
    rw [Function.update_of_ne hreg, taken, taken]
    simp only [hiff]

lemma keys_loop (hk : k < 8) (hret : s.ret = 0) (hj : j < 8) : Leads clock inputs
    (atState (takes k 0) a da b (keyAt b (8 * k)) C s ch)
    (atState (takes k j) a da b (keyAt b (8 * k + j)) C { s with z := taken b k j s.z } ch) := by
  induction j with
  | zero =>
    rw [taken_zero]
    exact .refl _
  | succ j ih =>
    rw [← update_taken b k s.z (show j < 8 by omega)]
    exact (ih (by omega)).trans ((leads_take fun w => comb_takes w _ hk (by omega)).trans
      (leads_ask _ _ hret fun w => comb_asks w _ hk (by omega)))

lemma keys_in (hk : k < 8) (hret : s.ret = 0) (hr : s.r = .ofNat 32 (k + 1)) : Leads clock inputs
    (atState .startRound a da b db C s ch)
    (atState .roundPart0 a da b (keyAt b (8 * k + 7)) C { s with z := taken b k 8 s.z } ch) := by
  have hlast : Leads clock inputs
      (atState (takes k 7) a da b (keyAt b (8 * k + 7)) C { s with z := taken b k 7 s.z } ch)
      (atState .roundPart0 a da b (keyAt b (8 * k + 7)) C { s with z := taken b k 8 s.z } ch) := by
    rw [← update_taken b k s.z (show 7 < 8 by norm_num)]
    exact leads_take fun w => comb_takes_last w _ hk
  exact (leads_ask _ _ hret fun w => comb_startRound w hk hr).trans
    ((keys_loop hk hret (by norm_num)).trans hlast)

def rounded (s : Core) : Core :=
  s.roundPart0.roundPart1.roundPart2.roundPart3.roundPart4.roundPart5.roundPart6
    |>.roundPart7.roundPart8

lemma parts : Leads clock inputs (atState .roundPart0 a da b db C s ch)
    (atState .startRound a da b db C (rounded s) ch) := by
  let s₂ := s.roundPart0.roundPart1
  let s₄ := s₂.roundPart2.roundPart3
  let s₆ := s₄.roundPart4.roundPart5
  have h₂ : Leads clock inputs (atState .roundPart0 a da b db C s ch)
      (atState .roundPart2 a da b db C s₂ ch) :=
    .trans (t := atState .roundPart1 a da b db C s.roundPart0 ch) (leads_regs fun _ => rfl)
      (leads_regs fun _ => rfl)
  have h₄ : Leads clock inputs (atState .roundPart2 a da b db C s₂ ch)
      (atState .roundPart4 a da b db C s₄ ch) :=
    .trans (t := atState .roundPart3 a da b db C s₂.roundPart2 ch) (leads_regs fun _ => rfl)
      (leads_regs fun _ => rfl)
  have h₆ : Leads clock inputs (atState .roundPart4 a da b db C s₄ ch)
      (atState .roundPart6 a da b db C s₆ ch) :=
    .trans (t := atState .roundPart5 a da b db C s₄.roundPart4 ch) (leads_regs fun _ => rfl)
      (leads_regs fun _ => rfl)
  have h₈ : Leads clock inputs (atState .roundPart6 a da b db C s₆ ch)
      (atState .roundPart8 a da b db C s₆.roundPart6.roundPart7 ch) :=
    .trans (t := atState .roundPart7 a da b db C s₆.roundPart6 ch) (leads_regs fun _ => rfl)
      (leads_regs fun _ => rfl)
  exact h₂.trans (h₄.trans (h₆.trans (h₈.trans (leads_regs fun _ => rfl))))

structure Holds (β : Block) (s : Core) : Prop where
  x1 : s.x1 = widen β.x1
  x2 : s.x2 = widen β.x2
  x3 : s.x3 = widen β.x3
  x4 : s.x4 = widen β.x4

structure HoldsLayer (z : LayerKeys) (s : Core) : Prop where
  z1 : s.z .z1_r = widen z.z1
  z2 : s.z .z2_r = widen z.z2
  z3 : s.z .z3_r = widen z.z3
  z4 : s.z .z4_r = widen z.z4

structure HoldsMix (m : MixKeys) (s : Core) : Prop where
  z5 : s.z .z5_r = widen m.z5
  z6 : s.z .z6_r = widen m.z6

variable {β : Block} {z : LayerKeys} {m : MixKeys}

lemma Holds.keyed (h : Holds β s) (hz : HoldsLayer z s) :
    Holds (β.keyed z) s.roundPart0.roundPart1 where
  x1 := by
    rw [Core.roundPart1, Core.roundPart0, h.x1, hz.z1]
    exact mul_widen _ _
  x2 := by
    rw [Core.roundPart1, Core.roundPart0, h.x2, hz.z2]
    exact widen_add _ _
  x3 := by
    rw [Core.roundPart1, Core.roundPart0, h.x3, hz.z3]
    exact widen_add _ _
  x4 := by
    rw [Core.roundPart1, Core.roundPart0, h.x4, hz.z4]
    exact mul_widen _ _

lemma Holds.kk (h : Holds β s) (hm : HoldsMix m s) :
    s.roundPart2.roundPart3.kk = widen (FermatWords.times m.z5 (β.x1 ^^^ β.x3)) := by
  rw [Core.roundPart3, Core.roundPart2, h.x1, h.x3, hm.z5, widen_xor]
  exact mul_widen _ _

lemma Holds.t1 (h : Holds β s) (hm : HoldsMix m s) {kk : BitVec 16} (hkk : s.kk = widen kk) :
    s.roundPart4.roundPart5.t1 = widen (FermatWords.times m.z6 (kk + (β.x2 ^^^ β.x4))) := by
  rw [Core.roundPart5, Core.roundPart4, h.x2, h.x4, hm.z6, hkk, widen_xor, widen_add]
  exact mul_widen _ _

structure Keeps (s s' : Core) : Prop where
  i : s'.i = s.i
  n : s'.n = s.n
  ret : s'.ret = s.ret
  r : s'.r = s.r
  z : s'.z = s.z

lemma Keeps.trans {s₁ s₂ s₃ : Core} (h : Keeps s₁ s₂) (h' : Keeps s₂ s₃) : Keeps s₁ s₃ :=
  ⟨h'.i.trans h.i, h'.n.trans h.n, h'.ret.trans h.ret, h'.r.trans h.r, h'.z.trans h.z⟩

lemma HoldsMix.keep {s' : Core} (hm : HoldsMix m s) (h : Keeps s s') : HoldsMix m s' := by
  constructor <;> rw [h.z]
  · exact hm.z5
  · exact hm.z6

lemma keeps_keyed : Keeps s s.roundPart0.roundPart1 := ⟨rfl, rfl, rfl, rfl, rfl⟩

lemma keeps_kk : Keeps s s.roundPart2.roundPart3 := ⟨rfl, rfl, rfl, rfl, rfl⟩

lemma keeps_t1 : Keeps s s.roundPart4.roundPart5 := ⟨rfl, rfl, rfl, rfl, rfl⟩

lemma keeps_mixed : Keeps s s.roundPart6.roundPart7 := ⟨rfl, rfl, rfl, rfl, rfl⟩

lemma Holds.added (h : Holds β s) {kk t1 : BitVec 16} (hkk : s.kk = widen kk)
    (ht1 : s.t1 = widen t1) :
      Holds ⟨β.x1 ^^^ t1, β.x3 ^^^ t1, β.x2 ^^^ (kk + t1), β.x4 ^^^ (kk + t1)⟩
      s.roundPart6.roundPart7 := by
  have ht2 : s.roundPart6.t2 = widen (kk + t1) := by
    rw [Core.roundPart6, hkk, ht1]
    exact widen_add _ _
  have hold : Holds β s.roundPart6 := ⟨h.x1, h.x2, h.x3, h.x4⟩
  have ht1' : s.roundPart6.t1 = widen t1 := ht1
  constructor
  · rw [Core.roundPart7, hold.x1, ht1', widen_xor]
  · rw [Core.roundPart7, hold.x3, ht1', widen_xor]
  · rw [Core.roundPart7, hold.x2, ht2, widen_xor]
  · rw [Core.roundPart7, hold.x4, ht2, widen_xor]

lemma Holds.mixed (h : Holds β s) (hm : HoldsMix m s) : Holds (β.mixed m).swap
    s.roundPart2.roundPart3.roundPart4.roundPart5.roundPart6.roundPart7 := by
  have h₄ : Holds β s.roundPart2.roundPart3 := ⟨h.x1, h.x2, h.x3, h.x4⟩
  have h₆ : Holds β s.roundPart2.roundPart3.roundPart4.roundPart5 := ⟨h₄.x1, h₄.x2, h₄.x3, h₄.x4⟩
  exact h₆.added (h.kk hm) (h₄.t1 (hm.keep keeps_kk) (h.kk hm))

lemma Holds.rounded (h : Holds β s) (hz : HoldsLayer z s) (hm : HoldsMix m s) :
    Holds (layers.round z m β) (rounded s) := by
  have hmixed := (h.keyed hz).mixed (hm.keep keeps_keyed)
  exact ⟨hmixed.x1, hmixed.x2, hmixed.x3, hmixed.x4⟩

lemma keeps_round : Keeps s
    s.roundPart0.roundPart1.roundPart2.roundPart3.roundPart4.roundPart5.roundPart6.roundPart7 :=
  keeps_keyed.trans (keeps_kk.trans (keeps_t1.trans keeps_mixed))

lemma widen_roundKey (hb : KeyTable b) (hk : 8 * k + j < 68) (hj : j < 6) :
    keyAt b (8 * k + j) = widen (keyWord b (8 * k + j)) :=
  (widen_keyWord hb hk (by omega)).symm

lemma holdsLayer (hb : KeyTable b) (hk : k < 8) (z : KeyReg → Word) :
    HoldsLayer (layerKeys b k) { s with z := taken b k 8 z } where
  z1 := widen_roundKey (j := 0) hb (by omega) (by norm_num)
  z2 := widen_roundKey (j := 1) hb (by omega) (by norm_num)
  z3 := widen_roundKey (j := 2) hb (by omega) (by norm_num)
  z4 := widen_roundKey (j := 3) hb (by omega) (by norm_num)

lemma holdsMix (hb : KeyTable b) (hk : k < 8) (z : KeyReg → Word) :
    HoldsMix (mixKeys b k) { s with z := taken b k 8 z } where
  z5 := widen_roundKey (j := 4) hb (by omega) (by norm_num)
  z6 := widen_roundKey (j := 5) hb (by omega) (by norm_num)

/-- The registers when `r` rounds of a block are done. -/
structure Underway (r : ℕ) (β : Block) (s₀ s : Core) : Prop extends Holds β s where
  r_eq : s.r = .ofNat 32 (r + 1)
  ret : s.ret = 0
  i : s.i = s₀.i
  n : s.n = s₀.n

lemma round_run {s₀ : Core} (hb : KeyTable b) (hk : k < 8) (h : Underway k β s₀ s) : ∃ s' db',
    Underway (k + 1) (layers.round (layerKeys b k) (mixKeys b k) β) s₀ s' ∧
      Leads clock inputs (atState .startRound a da b db C s ch)
        (atState .startRound a da b db' C s' ch) := by
  let s' : Core := { s with z := taken b k 8 s.z }
  have hholds : Holds β s' := ⟨h.x1, h.x2, h.x3, h.x4⟩
  have hrounded := hholds.rounded (holdsLayer hb hk s.z) (holdsMix hb hk s.z)
  have hkeep : Keeps s' _ := keeps_round
  refine ⟨rounded s', keyAt b (8 * k + 7), ⟨hrounded, ?_, hkeep.ret.trans h.ret, hkeep.i.trans h.i,
    hkeep.n.trans h.n⟩, (keys_in hk h.ret h.r_eq).trans parts⟩
  have hr : (rounded s').r = s.r + 1 := congrArg (· + 1) hkeep.r
  rw [hr, h.r_eq]
  exact (BitVec.ofNat_add _ _).symm

lemma rounds_run {s₀ : Core} (hb : KeyTable b) (hk : k ≤ 8) (h : Underway 0 β s₀ s) : ∃ s' db',
    Underway k (layers.rounds (layerKeys b) (mixKeys b) k β) s₀ s' ∧
      Leads clock inputs (atState .startRound a da b db C s ch)
        (atState .startRound a da b db' C s' ch) := by
  induction k with
  | zero => exact ⟨s, db, h, .refl _⟩
  | succ k ih =>
    obtain ⟨s₁, db₁, h₁, hrun⟩ := ih (by omega)
    obtain ⟨s₂, db₂, h₂, hround⟩ := round_run hb (show k < 8 by omega) h₁
    exact ⟨s₂, db₂, h₂, hrun.trans hround⟩

lemma comb_startRound_last (w : Wires) (hr : s.r = .ofNat 32 9) :
    comb w { s with currentState := .startRound } = readKey (.ofNat 32 64) .extra69 s := by
  have hcomb : comb w { s with currentState := .startRound, r := .ofNat 32 9 } =
      readKey (.ofNat 32 64) .extra69 { s with r := .ofNat 32 9 } := rfl
  rwa [← hr] at hcomb

def lastKeys (b : Word → Word) (s : Core) : Core :=
  let s₁ : Core := { s with z := Function.update s.z .z1_r (keyAt b 64) }
  let s₂ : Core := { s₁ with z := Function.update s₁.z .z4_r (keyAt b 67) }
  let s₃ : Core := { s₂ with z := Function.update s₂.z .z2_r (keyAt b 65) }
  { s₃ with z := Function.update s₃.z .z3_r (keyAt b 66) }

lemma last_keys_in (hret : s.ret = 0) (hr : s.r = .ofNat 32 9) : Leads clock inputs
    (atState .startRound a da b db C s ch)
    (atState .preCalcResults a da b (keyAt b 66) C (lastKeys b s) ch) := by
  let s₁ : Core := { s with z := Function.update s.z .z1_r (keyAt b 64) }
  let s₂ : Core := { s₁ with z := Function.update s₁.z .z4_r (keyAt b 67) }
  let s₃ : Core := { s₂ with z := Function.update s₂.z .z2_r (keyAt b 65) }
  have h₁ : Leads clock inputs (atState .startRound a da b db C s ch)
      (atState .r9_4 a da b (keyAt b 64) C s₁ ch) :=
    (leads_ask _ _ hret fun w => comb_startRound_last w hr).trans (leads_take fun _ => rfl)
  have h₂ : Leads clock inputs (atState .r9_4 a da b (keyAt b 64) C s₁ ch)
      (atState .r9_2 a da b (keyAt b 67) C s₂ ch) :=
    (leads_ask (s := s₁) .extra70 67 hret fun _ => rfl).trans (leads_take fun _ => rfl)
  have h₃ : Leads clock inputs (atState .r9_2 a da b (keyAt b 67) C s₂ ch)
      (atState .r9_3 a da b (keyAt b 65) C s₃ ch) :=
    (leads_ask (s := s₂) .extra71 65 hret fun _ => rfl).trans (leads_take fun _ => rfl)
  have h₄ : Leads clock inputs (atState .r9_3 a da b (keyAt b 65) C s₃ ch)
      (atState .preCalcResults a da b (keyAt b 66) C (lastKeys b s) ch) :=
    (leads_ask (s := s₃) .extra72 66 hret fun _ => rfl).trans (leads_take fun _ => rfl)
  exact h₁.trans (h₂.trans (h₃.trans h₄))

lemma holdsLayer_last (hb : KeyTable b) : HoldsLayer (layerKeys b 8) (lastKeys b s) where
  z1 := widen_roundKey (k := 8) (j := 0) hb (by norm_num) (by norm_num)
  z2 := widen_roundKey (k := 8) (j := 1) hb (by norm_num) (by norm_num)
  z3 := widen_roundKey (k := 8) (j := 2) hb (by norm_num) (by norm_num)
  z4 := widen_roundKey (k := 8) (j := 3) hb (by norm_num) (by norm_num)

structure HoldsOut (β : Block) (s : Core) : Prop where
  out1 : s.out1 = widen β.x1
  out2 : s.out2 = widen β.x2
  out3 : s.out3 = widen β.x3
  out4 : s.out4 = widen β.x4

lemma Holds.calcResults (h : Holds β s) (hz : HoldsLayer z s) :
    HoldsOut (β.swap.keyed z) s.roundPart0.calcResults where
  out1 := by
    rw [Core.calcResults, Core.roundPart0, h.x1, hz.z1]
    exact mul_widen _ _
  out2 := by
    rw [Core.calcResults, Core.roundPart0, h.x3, hz.z2]
    exact widen_add _ _
  out3 := by
    rw [Core.calcResults, Core.roundPart0, h.x2, hz.z3]
    exact widen_add _ _
  out4 := by
    rw [Core.calcResults, Core.roundPart0, h.x4, hz.z4]
    exact mul_widen _ _

end Runs

end Hthreads.HwAcc.Idea
