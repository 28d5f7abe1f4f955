import Hthreads.HwAcc.IdeaRounds

/-! The blocks of a command, one after another, and the whole command from the word that gives its
range to the answer. -/

namespace Hthreads.HwAcc.Idea

open Library

structure BlockAt (c : Word → Word) (i : Word) (β : Block) : Prop where
  x1 : c (wordAddr i) = widen β.x1
  x2 : c (wordAddr (i + 1)) = widen β.x2
  x3 : c (wordAddr (i + 2)) = widen β.x3
  x4 : c (wordAddr (i + 3)) = widen β.x4

def Block.word (β : Block) : ℕ → BitVec 16
  | 0 => β.x1
  | 1 => β.x2
  | 2 => β.x3
  | _ => β.x4

def blockAt (a : Word → Word) (i : Word) : Block :=
  ⟨(a (wordAddr i)).setWidth 16, (a (wordAddr (i + 1))).setWidth 16,
    (a (wordAddr (i + 2))).setWidth 16, (a (wordAddr (i + 3))).setWidth 16⟩

def stored (c : Word → Word) (i : Word) (β : Block) : Word → Word :=
  let c₁ := Function.update c (wordAddr i) (widen β.x1)
  let c₂ := Function.update c₁ (wordAddr (i + 1)) (widen β.x2)
  let c₃ := Function.update c₂ (wordAddr (i + 2)) (widen β.x3)
  Function.update c₃ (wordAddr (i + 3)) (widen β.x4)

section Words

variable {a c : Word → Word} {i j : Word} {β : Block}

lemma BlockAt.eq (h : BlockAt a i β) : blockAt a i = β := by
  rw [blockAt, h.x1, h.x2, h.x3, h.x4, setWidth_widen, setWidth_widen, setWidth_widen,
    setWidth_widen]

lemma BlockAt.word (h : BlockAt c i β) {r : ℕ} (hr : r < 4) :
    c (wordAddr (i + .ofNat 32 r)) = widen (β.word r) := by
  interval_cases r
  · exact (congrArg (fun k => c (wordAddr k)) (add_zero i)).trans h.x1
  · exact h.x2
  · exact h.x3
  · exact h.x4

lemma BlockAt.of_words (h : ∀ r < 4, c (wordAddr (i + .ofNat 32 r)) = widen (β.word r)) :
    BlockAt c i β := by
  have h0 := h 0 (by norm_num)
  rw [show i + .ofNat 32 0 = i from add_zero i] at h0
  exact ⟨h0, h 1 (by norm_num), h 2 (by norm_num), h 3 (by norm_num)⟩

lemma blockAt_words (h : ∀ k, i ≤ k → k < i + 4 → (a (wordAddr k)).toNat < 2 ^ 16)
    (hi : i.toNat < 2 ^ 15) : BlockAt a i (blockAt a i) := by
  constructor
  · exact (widen_setWidth (h i (by bv_omega) (by bv_omega))).symm
  · exact (widen_setWidth (h (i + 1) (by bv_omega) (by bv_omega))).symm
  · exact (widen_setWidth (h (i + 2) (by bv_omega) (by bv_omega))).symm
  · exact (widen_setWidth (h (i + 3) (by bv_omega) (by bv_omega))).symm

lemma wordAddr_ne {k l : Word} (hk : k.toNat ≤ 2 ^ 15) (hl : l.toNat ≤ 2 ^ 15) (h : k ≠ l) :
    wordAddr k ≠ wordAddr l := fun heq => h (wordAddr_inj hk hl heq)

lemma blockAt_stored (c : Word → Word) (hi : i.toNat + 4 ≤ 2 ^ 15) (β : Block) :
    BlockAt (stored c i β) i β := by
  have hne : ∀ k l : Word, k.toNat < 4 → l.toNat < 4 → k ≠ l →
      wordAddr (i + k) ≠ wordAddr (i + l) :=
    fun k l hk hl h => wordAddr_ne (by bv_omega) (by bv_omega) (by bv_omega)
  have hfirst : ∀ l : Word, l.toNat < 4 → l ≠ 0 → wordAddr i ≠ wordAddr (i + l) := fun l hl h =>
    wordAddr_ne (by bv_omega) (by bv_omega) (by bv_omega)
  constructor
  · rw [stored, Function.update_of_ne (hfirst 3 (by decide) (by decide)),
      Function.update_of_ne (hfirst 2 (by decide) (by decide)),
      Function.update_of_ne (hfirst 1 (by decide) (by decide)), Function.update_self]
  · rw [stored, Function.update_of_ne (hne 1 3 (by decide) (by decide) (by decide)),
      Function.update_of_ne (hne 1 2 (by decide) (by decide) (by decide)), Function.update_self]
  · rw [stored, Function.update_of_ne (hne 2 3 (by decide) (by decide) (by decide)),
      Function.update_self]
  · rw [stored, Function.update_self]

lemma stored_of_ne (c : Word → Word) (β : Block) {x : Word}
    (h : ∀ k : Word, k.toNat < 4 → x ≠ wordAddr (i + k)) : stored c i β x = c x := by
  have h0 : x ≠ wordAddr i := by
    rw [← add_zero i]
    exact h 0 (by decide)
  rw [stored, Function.update_of_ne (h 3 (by decide)), Function.update_of_ne (h 2 (by decide)),
    Function.update_of_ne (h 1 (by decide)), Function.update_of_ne h0]

lemma BlockAt.later (h : BlockAt c j β) (hj : j.toNat + 4 ≤ i.toNat) (hi : i.toNat + 4 ≤ 2 ^ 15)
    (γ : Block) : BlockAt (stored c i γ) j β := by
  have hold : ∀ l : Word, l.toNat < 4 → stored c i γ (wordAddr (j + l)) = c (wordAddr (j + l)) :=
    fun l hl => stored_of_ne c γ fun k hk => wordAddr_ne (by bv_omega) (by bv_omega) (by bv_omega)
  have hfirst : stored c i γ (wordAddr j) = c (wordAddr j) := by
    rw [← add_zero j]
    exact hold 0 (by decide)
  exact ⟨hfirst.trans h.x1, (hold 1 (by decide)).trans h.x2, (hold 2 (by decide)).trans h.x3,
    (hold 3 (by decide)).trans h.x4⟩

end Words

lemma toNat_block {start : Word} {m : ℕ} (h : start.toNat + 4 * m < 2 ^ 32) :
    (start + .ofNat 32 (4 * m)).toNat = start.toNat + 4 * m := by
  rw [BitVec.toNat_add, BitVec.toNat_ofNat]
  omega

/-- Every block from `start` on and before `stop` has gone through the cipher, and no other word has
changed. -/
structure Enciphered (b : Word → Word) (start stop : Word) (a c c' : Word → Word) : Prop where
  block : ∀ m : ℕ, start.toNat + 4 * m < stop.toNat → BlockAt c' (start + .ofNat 32 (4 * m))
    (idea b (blockAt a (start + .ofNat 32 (4 * m))))
  outside : ∀ x, (∀ k, start ≤ k → k < stop → x ≠ wordAddr k) → c' x = c x

namespace Enciphered

variable {a b c c' : Word → Word} {start i : Word}

lemma empty (b : Word → Word) (start : Word) (a c : Word → Word) : Enciphered b start start a c c :=
  ⟨fun m hm => absurd hm (by omega), fun _ _ => rfl⟩

lemma next (h : Enciphered b start i a c c') {d : ℕ} (hd : start.toNat + 4 * d = i.toNat)
    (hi : i.toNat + 4 ≤ 2 ^ 15) :
    Enciphered b start (i + 4) a c (stored c' i (idea b (blockAt a i))) := by
  have hnext : (i + 4).toNat = i.toNat + 4 := by bv_omega
  have hnat : ∀ m ≤ d, (start + .ofNat 32 (4 * m)).toNat = start.toNat + 4 * m :=
    fun m hm => toNat_block (by omega)
  refine ⟨fun m hm => ?_, fun x hx => ?_⟩
  · rcases Nat.lt_or_ge m d with hlt | hge
    · have hm' := hnat m (Nat.le_of_lt hlt)
      exact (h.block m (by omega)).later (by omega) hi _
    · obtain rfl : m = d := by omega
      have hlast : start + .ofNat 32 (4 * m) = i :=
        BitVec.eq_of_toNat_eq ((hnat m (Nat.le_refl m)).trans hd)
      rw [hlast]
      exact blockAt_stored c' hi _
  · rw [stored_of_ne c' _ fun k hk => hx (i + k) (by bv_omega) (by bv_omega)]
    exact h.outside x fun k hk hlt => hx k hk (by bv_omega)

end Enciphered

section Runs

variable {inputs : ℕ → ChanInput} {st : State} {a b : Word → Word} {da db : Word} {C : Bram 32 32}
  {s : Core} {ch : Channel} {β : Block}

lemma leads_block (next : State) (k : Word)
    (hcomb : ∀ w, comb w { s with currentState := st } = readBlock k next s) :
    Leads clock inputs (atState st a da b db C s ch)
      (atState next a (a (wordAddr (s.i + k))) b db C s ch) :=
  leads { vectorA := .read (wordAddr (s.i + k)) } (fun _ => hcomb _) fun _ => rfl

def withBlock (a : Word → Word) (s : Core) : Core :=
  { s with
    x1 := a (wordAddr (s.i + 0)), x2 := a (wordAddr (s.i + 1)), x3 := a (wordAddr (s.i + 2))
    x4 := a (wordAddr (s.i + 3)), r := 1 }

lemma block_in (hlt : s.i < s.n) : Leads clock inputs (atState .ideaState1 a da b db C s ch)
    (atState .startRound a (a (wordAddr (s.i + 3))) b db C (withBlock a s) ch) := by
  let s₁ : Core := { s with x1 := a (wordAddr (s.i + 0)) }
  let s₂ : Core := { s₁ with x2 := a (wordAddr (s.i + 1)) }
  let s₃ : Core := { s₂ with x3 := a (wordAddr (s.i + 2)) }
  have hgo : ¬ s.n ≤ s.i := by bv_omega
  have h₀ : Leads clock inputs (atState .ideaState1 a da b db C s ch)
      (atState .extra1 a (a (wordAddr (s.i + 0))) b db C s ch) :=
    leads_block .extra1 0 fun _ => if_neg hgo
  have h₁ : Leads clock inputs (atState .extra1 a (a (wordAddr (s.i + 0))) b db C s ch)
      (atState .readX1 a (a (wordAddr (s.i + 0))) b db C s₁ ch) :=
        leads {} (fun _ => rfl) fun _ => rfl
  have h₂ : Leads clock inputs (atState .readX1 a (a (wordAddr (s.i + 0))) b db C s₁ ch)
      (atState .readX2 a (a (wordAddr (s.i + 1))) b db C s₂ ch) :=
    (leads_block (s := s₁) .extra2 1 fun _ => rfl).trans (leads {} (fun _ => rfl) fun _ => rfl)
  have h₃ : Leads clock inputs (atState .readX2 a (a (wordAddr (s.i + 1))) b db C s₂ ch)
      (atState .readX3 a (a (wordAddr (s.i + 2))) b db C s₃ ch) :=
    (leads_block (s := s₂) .extra3 2 fun _ => rfl).trans (leads {} (fun _ => rfl) fun _ => rfl)
  have h₄ : Leads clock inputs (atState .readX3 a (a (wordAddr (s.i + 2))) b db C s₃ ch)
      (atState .startRound a (a (wordAddr (s.i + 3))) b db C (withBlock a s) ch) :=
    (leads_block (s := s₃) .extra4 3 fun _ => rfl).trans (leads {} (fun _ => rfl) fun _ => rfl)
  exact h₀.trans (h₁.trans (h₂.trans (h₃.trans h₄)))

lemma leads_write (next : State) (k out : Word)
    (hcomb : ∀ w, comb w { s with currentState := st } = writeResult k out next s) :
    Leads clock inputs (atState st a da b db C s ch)
      (atState next a da b db (C.clock (.write (wordAddr (s.i + k)) out)) s ch) :=
  leads { vectorC := .write (wordAddr (s.i + k)) out } (fun _ => hcomb _) fun _ => rfl

lemma block_out (h : HoldsOut β s) : ∃ dc', Leads clock inputs
    (atState .outputResults a da b db C s ch)
    (atState .ideaState1 a da b db ⟨stored C.data s.i β, dc'⟩ { s with i := s.i + 4 } ch) := by
  let C₁ := C.clock (.write (wordAddr (s.i + 0)) s.out1)
  let C₂ := C₁.clock (.write (wordAddr (s.i + 1)) s.out2)
  let C₃ := C₂.clock (.write (wordAddr (s.i + 2)) s.out3)
  let C₄ := C₃.clock (.write (wordAddr (s.i + 3)) s.out4)
  have h₁ : Leads clock inputs (atState .outputResults a da b db C s ch)
      (atState .nextResult a da b db C₁ s ch) := leads_write _ _ _ fun _ => rfl
  have h₂ : Leads clock inputs (atState .nextResult a da b db C₁ s ch)
      (atState .nextNextResult a da b db C₂ s ch) := leads_write _ _ _ fun _ => rfl
  have h₃ : Leads clock inputs (atState .nextNextResult a da b db C₂ s ch)
      (atState .nextNextNextResult a da b db C₃ s ch) := leads_write _ _ _ fun _ => rfl
  have h₄ : Leads clock inputs (atState .nextNextNextResult a da b db C₃ s ch)
      (atState .ideaState1 a da b db C₄ { s with i := s.i + 4 } ch) :=
    leads { vectorC := .write (wordAddr (s.i + 3)) s.out4 } (fun _ => rfl) fun _ => rfl
  have hstored : C₄.data = stored C.data s.i β := by
    change Function.update (Function.update (Function.update (Function.update C.data
      (wordAddr (s.i + 0)) s.out1) (wordAddr (s.i + 1)) s.out2) (wordAddr (s.i + 2)) s.out3)
      (wordAddr (s.i + 3)) s.out4 = _
    rw [h.out1, h.out2, h.out3, h.out4, add_zero]
    rfl
  refine ⟨C₄.dout, ?_⟩
  rw [← hstored]
  exact h₁.trans (h₂.trans (h₃.trans h₄))

lemma block_run (hb : KeyTable b) (hret : s.ret = 0) (hlt : s.i < s.n)
    (hβ : BlockAt a s.i β) : ∃ s' da' db' dc', s'.i = s.i + 4 ∧ s'.n = s.n ∧ s'.ret = 0 ∧
      Leads clock inputs (atState .ideaState1 a da b db C s ch)
        (atState .ideaState1 a da' b db' ⟨stored C.data s.i (idea b β), dc'⟩ s' ch) := by
  have hholds : Holds β (withBlock a s) :=
    ⟨(congrArg (fun i => a (wordAddr i)) (add_zero s.i)).trans hβ.x1, hβ.x2, hβ.x3, hβ.x4⟩
  have hunder : Underway 0 β s (withBlock a s) := ⟨hholds, rfl, hret, rfl, rfl⟩
  let da₁ := a (wordAddr (s.i + 3))
  have hrounds : ∃ s₁ db₁, Underway 8 (layers.rounds (layerKeys b) (mixKeys b) 8 β) s s₁ ∧
      Leads clock inputs (atState .startRound a da₁ b db C (withBlock a s) ch)
        (atState .startRound a da₁ b db₁ C s₁ ch) := rounds_run hb (Nat.le_refl 8) hunder
  obtain ⟨s₁, db₁, h₁, hrounds⟩ := hrounds
  let s₂ := (lastKeys b s₁).roundPart0.calcResults
  have hlast : Holds (layers.rounds (layerKeys b) (mixKeys b) 8 β) (lastKeys b s₁) :=
    ⟨h₁.x1, h₁.x2, h₁.x3, h₁.x4⟩
  have hout : HoldsOut (idea b β) s₂ := hlast.calcResults (holdsLayer_last hb)
  have hcalc : Leads clock inputs
    (atState .preCalcResults a da₁ b (keyAt b 66) C (lastKeys b s₁) ch)
      (atState .outputResults a da₁ b (keyAt b 66) C s₂ ch) :=
    .trans (t := atState .calcResults a da₁ b (keyAt b 66) C (lastKeys b s₁).roundPart0 ch)
      (leads_regs fun _ => rfl) (leads_regs fun _ => rfl)
  have hwrite : ∃ dc', Leads clock inputs (atState .outputResults a da₁ b (keyAt b 66) C s₂ ch)
      (atState .ideaState1 a da₁ b (keyAt b 66) ⟨stored C.data s₂.i (idea b β), dc'⟩
        { s₂ with i := s₂.i + 4 } ch) := block_out hout
  obtain ⟨dc', hwrite⟩ := hwrite
  have hi : s₂.i = s.i := h₁.i
  rw [hi] at hwrite
  exact ⟨{ s₂ with i := s.i + 4 }, _, _, dc', rfl, h₁.n, h₁.ret, (block_in hlt).trans
    (hrounds.trans ((last_keys_in h₁.ret h₁.r_eq).trans (hcalc.trans hwrite)))⟩

lemma blocks_run {start : Word} {c : Word → Word} (hb : KeyTable b) (hn : s.n.toNat < 2 ^ 15)
    (ha : ∀ k, start ≤ k → k < s.n → (a (wordAddr k)).toNat < 2 ^ 16) (m : ℕ) :
    ∀ {t : Core} {da db : Word} {c' : Word → Word} {dc : Word} {d : ℕ}, t.n = s.n → t.ret = 0 →
      t.i.toNat + 4 * m = s.n.toNat → start.toNat + 4 * d = t.i.toNat →
      Enciphered b start t.i a c c' → ∃ t' da' db' c'' dc', t'.n = s.n ∧ t'.i = s.n ∧
        Enciphered b start s.n a c c'' ∧
          Leads clock inputs (atState .ideaState1 a da b db ⟨c', dc⟩ t ch)
          (atState .ideaState1 a da' b db' ⟨c'', dc'⟩ t' ch) := by
  induction m with
  | zero =>
    intro t da db c' dc d htn hret hleft hd hc
    have hend : t.i = s.n := BitVec.eq_of_toNat_eq (by omega)
    exact ⟨t, da, db, c', dc, htn, hend, hend ▸ hc, .refl _⟩
  | succ m ih =>
    intro t da db c' dc d htn hret hleft hd hc
    have hlt : t.i < t.n := by
      rw [htn]
      bv_omega
    have hβ : BlockAt a t.i (blockAt a t.i) :=
      blockAt_words (fun k hk hlt => ha k (by bv_omega) (by bv_omega)) (by omega)
    obtain ⟨t₁, da₁, db₁, dc₁, hi₁, hn₁, hret₁, hblock⟩ := block_run hb hret hlt hβ
    have hnext : (t.i + 4).toNat = t.i.toNat + 4 := by bv_omega
    have hc₁ : Enciphered b start t₁.i a c (stored c' t.i (idea b (blockAt a t.i))) := by
      rw [hi₁]
      exact hc.next hd (by omega)
    obtain ⟨t', da', db', c'', dc', htn', hi', hc'', hrest⟩ := ih (hn₁.trans htn) hret₁
      (by rw [hi₁]; omega) (show start.toNat + 4 * (d + 1) = t₁.i.toNat by rw [hi₁]; omega) hc₁
    exact ⟨t', da', db', c'', dc', htn', hi', hc'', hblock.trans hrest⟩

end Runs

section Runs

variable {inputs : ℕ → ChanInput} {a b : Word → Word} {da db : Word} {C : Bram 32 32} {s : Core}

def received (w : Word) (s : Core) : Core :=
  { s with
    instruction := w, ret := 0, index := startField w, n := endField w, op := w.extractLsb' 30 2
    i := startField w }

variable {w : Word} {rest sent : List Word}

lemma fetch (hs : Serves inputs) {s : System} (hfetch : s.core.currentState = .fetch)
    (hpending : s.chan1.pending = w :: rest) : Leads clock inputs s
      (atState .getInstr s.vectorA.data s.vectorA.dout s.vectorB.data s.vectorB.dout s.vectorC
        { s.core with instruction := w } ⟨rest, s.chan1.sent⟩) := by
  obtain ⟨s, ⟨a, da⟩, ⟨b, db⟩, C, ⟨pending, sent⟩⟩ := s
  obtain rfl : pending = w :: rest := hpending
  have hwait : ∀ w, comb w s =
      if w.chan1_exists then
        ({ s with currentState := .getInstr, instruction := w.chan1_channelDataOut },
          { chan1 := { channelRead := true } })
      else (s, {}) := by
    intro w
    rw [comb, show s.currentState = .fetch from hfetch]
  refine hs.leads_ready (fun i hi => ?_) fun i hi => ?_
  · simp [clock, hwait, wires, Channel.exist_cons, Channel.clock, hi]
  · simp [clock, hwait, wires, atState, Channel.exist_cons, Channel.clock,
      Channel.channelDataOut, hi]

lemma fetch_command (hs : Serves inputs) {s : System} (hfetch : s.core.currentState = .fetch)
    (hpending : s.chan1.pending = w :: rest) : Leads clock inputs s
      (atState .ideaState1 s.vectorA.data s.vectorA.dout s.vectorB.data s.vectorB.dout s.vectorC
        (received w s.core) ⟨rest, s.chan1.sent⟩) :=
  (fetch hs hfetch hpending).trans (.trans (t := atState .decode s.vectorA.data s.vectorA.dout
    s.vectorB.data s.vectorB.dout s.vectorC
    { s.core with
      instruction := w, ret := 0, index := startField w, n := endField w
      op := w.extractLsb' 30 2 } ⟨rest, s.chan1.sent⟩)
    (leads_regs fun _ => rfl) (leads_regs fun _ => rfl))

lemma answer (hs : Serves inputs) : Leads clock inputs (atState .halt a da b db C s ⟨rest, sent⟩)
    (atState .fetch a da b db C s ⟨rest, sent ++ [s.out4]⟩) := by
  have hwait : ∀ w, comb w { s with currentState := .halt } =
      if w.chan1_full then ({ s with currentState := .halt }, {})
      else ({ s with currentState := .fetch },
        { chan1 := { channelWrite := true, channelDataIn := s.out4 } }) := fun _ => rfl
  refine hs.leads_room (fun i hi => ?_) fun i hi => ?_
  · simp [clock, hwait, wires, atState, Channel.clock, hi]
  · simp [clock, hwait, wires, atState, Channel.clock, hi]

end Runs

/-- A command on whole blocks of words of sixteen bits, under keys of sixteen bits. -/
structure Commanded (w : Word) (rest : List Word) (s : System) : Prop where
  currentState : s.core.currentState = .fetch
  pending : s.chan1.pending = w :: rest
  words : ∀ j, startField w ≤ j → j < endField w → (s.vectorA.data (wordAddr j)).toNat < 2 ^ 16
  keys : KeyTable s.vectorB.data

/-- The core is back in `fetch` with one answer more, having written nothing but its blocks. -/
structure Answered (w : Word) (rest : List Word) (s t : System) : Prop where
  currentState : t.core.currentState = .fetch
  chan1 : ∃ answer, t.chan1 = ⟨rest, s.chan1.sent ++ [answer]⟩
  vectorA : t.vectorA.data = s.vectorA.data
  vectorB : t.vectorB.data = s.vectorB.data
  vectorC : Enciphered s.vectorB.data (startField w) (endField w) s.vectorA.data s.vectorC.data
    t.vectorC.data

section Commands

variable {inputs : ℕ → ChanInput} {w : Word} {rest : List Word} {s : System}

lemma answered (hs : Serves inputs) (hle : startField w ≤ endField w)
    (hfour : 4 ∣ (endField w).toNat - (startField w).toNat) (h : Commanded w rest s) :
    ∃ t, Answered w rest s t ∧ Leads clock inputs s t := by
  obtain ⟨m, hm⟩ := hfour
  have hleft : (startField w).toNat + 4 * m = (endField w).toNat := by bv_omega
  have hrun : ∃ t' da' db' c'' dc', t'.n = endField w ∧ t'.i = endField w ∧
      Enciphered s.vectorB.data (startField w) (endField w) s.vectorA.data s.vectorC.data c'' ∧
      Leads clock inputs
        (atState .ideaState1 s.vectorA.data s.vectorA.dout s.vectorB.data s.vectorB.dout s.vectorC
          (received w s.core) ⟨rest, s.chan1.sent⟩)
        (atState .ideaState1 s.vectorA.data da' s.vectorB.data db' ⟨c'', dc'⟩ t'
          ⟨rest, s.chan1.sent⟩) :=
    blocks_run (s := received w s.core) (d := 0) h.keys (endField_lt w) h.words m rfl rfl hleft rfl
      (.empty _ _ _ _)
  obtain ⟨t', da', db', c'', dc', hn, hi, hc, hrun⟩ := hrun
  have hhalt : Leads clock inputs
      (atState .ideaState1 s.vectorA.data da' s.vectorB.data db' ⟨c'', dc'⟩ t' ⟨rest, s.chan1.sent⟩)
      (atState .halt s.vectorA.data da' s.vectorB.data db' ⟨c'', dc'⟩ t' ⟨rest, s.chan1.sent⟩) :=
    leads_regs fun _ => if_pos (by rw [hn, hi]; exact BitVec.le_refl _)
  exact ⟨atState .fetch s.vectorA.data da' s.vectorB.data db' ⟨c'', dc'⟩ t'
      ⟨rest, s.chan1.sent ++ [t'.out4]⟩, ⟨rfl, ⟨t'.out4, rfl⟩, rfl, rfl, hc⟩,
    (fetch_command hs h.currentState h.pending).trans (hrun.trans (hhalt.trans (answer hs)))⟩

lemma block_of_word {j : Word} (hfour : 4 ∣ (endField w).toNat - (startField w).toNat)
    (hj : startField w ≤ j) (hlt : j < endField w) : ∃ m r : ℕ,
      (startField w).toNat + 4 * m + 4 ≤ (endField w).toNat ∧ r < 4 ∧
        j = startField w + .ofNat 32 (4 * m) + .ofNat 32 r := by
  obtain ⟨d, hd⟩ := hfour
  have hend := endField_lt w
  have hstart : (startField w).toNat ≤ j.toNat := BitVec.le_def.mp hj
  have hstop : j.toNat < (endField w).toNat := BitVec.lt_def.mp hlt
  refine ⟨(j.toNat - (startField w).toNat) / 4,
    (j.toNat - (startField w).toNat) % 4, by omega, by omega, BitVec.eq_of_toNat_eq ?_⟩
  rw [BitVec.toNat_add, BitVec.toNat_add, BitVec.toNat_ofNat, BitVec.toNat_ofNat]
  omega

section Back

variable {a b c c₁ a' b' c' c₂ : Word → Word} {m : ℕ}

lemma blockAt_of_written (hm : (startField w).toNat + 4 * m + 4 ≤ (endField w).toNat)
    (hc : Enciphered b (startField w) (endField w) a c c₁)
    (hread : ∀ j, startField w ≤ j → j < endField w → a' (wordAddr j) = c₁ (wordAddr j)) :
    blockAt a' (startField w + .ofNat 32 (4 * m)) =
      idea b (blockAt a (startField w + .ofNat 32 (4 * m))) := by
  have hend := endField_lt w
  have hbase : (startField w + .ofNat 32 (4 * m)).toNat = (startField w).toNat + 4 * m :=
    toNat_block (by omega)
  refine (BlockAt.of_words fun r hr => ?_).eq
  have hword : (startField w + .ofNat 32 (4 * m) + .ofNat 32 r).toNat =
      (startField w).toNat + 4 * m + r := by
    rw [BitVec.toNat_add, hbase, BitVec.toNat_ofNat]
    omega
  rw [hread _ (BitVec.le_def.mpr (by omega)) (BitVec.lt_def.mpr (by omega))]
  exact (hc.block m (by omega)).word hr

lemma written_lt (hfour : 4 ∣ (endField w).toNat - (startField w).toNat)
    (hc : Enciphered b (startField w) (endField w) a c c₁) {j : Word} (hj : startField w ≤ j)
    (hlt : j < endField w) : (c₁ (wordAddr j)).toNat < 2 ^ 16 := by
  obtain ⟨m, r, hm, hr, rfl⟩ := block_of_word hfour hj hlt
  rw [(hc.block m (by omega)).word hr, toNat_widen]
  exact BitVec.isLt _

lemma words_back (hfour : 4 ∣ (endField w).toNat - (startField w).toNat)
    (ha : ∀ j, startField w ≤ j → j < endField w → (a (wordAddr j)).toNat < 2 ^ 16)
    (hc : Enciphered b (startField w) (endField w) a c c₁)
    (hread : ∀ j, startField w ≤ j → j < endField w → a' (wordAddr j) = c₁ (wordAddr j))
    (hinv : InverseTable b b') (hc' : Enciphered b' (startField w) (endField w) a' c' c₂) {j : Word}
    (hj : startField w ≤ j) (hlt : j < endField w) : c₂ (wordAddr j) = a (wordAddr j) := by
  obtain ⟨m, r, hm, hr, rfl⟩ := block_of_word hfour hj hlt
  have hend := endField_lt w
  have hbase : (startField w + .ofNat 32 (4 * m)).toNat = (startField w).toNat + 4 * m :=
    toNat_block (by omega)
  have hback := hc'.block m (by omega)
  rw [blockAt_of_written hm hc hread, hinv.idea_idea] at hback
  have hblock :=
    blockAt_words (fun k hk hlt => ha k (by bv_omega) (by bv_omega)) (by omega) (a := a)
    (i := startField w + .ofNat 32 (4 * m))
  rw [hback.word hr, hblock.word hr]

end Back

end Commands

/-- The core enciphers every block of a command and answers once; under the inverse table it makes
the blocks that it has written the old ones again. -/
theorem idea_core_enciphers {inputs : ℕ → ChanInput} (hs : Serves inputs) {w : Word}
    (hle : startField w ≤ endField w) (hfour : 4 ∣ (endField w).toNat - (startField w).toNat)
    {rest : List Word} (s : System) (h : Commanded w rest s) (k : ℕ) :
    ∃ n, let t := clocked clock inputs k n s
      Answered w rest s t ∧
      ∀ {inputs' : ℕ → ChanInput}, Serves inputs' → ∀ {rest' : List Word} (s' : System),
        s'.core.currentState = .fetch → s'.chan1.pending = w :: rest' →
        (∀ j, startField w ≤ j → j < endField w →
          s'.vectorA.data (wordAddr j) = t.vectorC.data (wordAddr j)) →
        InverseTable s.vectorB.data s'.vectorB.data → ∀ k', ∃ n',
          let t' := clocked clock inputs' k' n' s'
          Answered w rest' s' t' ∧ ∀ j, startField w ≤ j → j < endField w →
            t'.vectorC.data (wordAddr j) = s.vectorA.data (wordAddr j) := by
  obtain ⟨t, ht, hrun⟩ := answered hs hle hfour h
  obtain ⟨n, hn⟩ := hrun k
  refine ⟨n, ?_⟩
  rw [hn]
  refine ⟨ht, fun hs' rest' s' hfetch hpending hread hinv k' => ?_⟩
  have h' : Commanded w rest' s' := by
    refine ⟨hfetch, hpending, fun j hj hlt => ?_, hinv.keyTable⟩
    rw [hread j hj hlt]
    exact written_lt hfour ht.vectorC hj hlt
  obtain ⟨t', ht', hrun'⟩ := answered hs' hle hfour h'
  obtain ⟨n', hn'⟩ := hrun' k'
  refine ⟨n', ?_⟩
  rw [hn']
  exact ⟨ht', fun j hj hlt => words_back hfour h.words ht.vectorC hread hinv ht'.vectorC hj hlt⟩

-- what `FSM_SYNC_PROCESS` makes of the registers at a reset
def cleared : Core where
  currentState := .reset
  i := 0
  n := 0
  instruction := 0
  index := 0
  ret := 0
  op := 0
  r := 0
  mult_res1 := 0
  mult_res2 := 0
  out1 := 0
  out2 := 0
  out3 := 0
  out4 := 0
  x1 := 0
  x2 := 0
  x3 := 0
  x4 := 0
  kk := 0
  t1 := 0
  t2 := 0
  a := 0
  z _ := 0

def waiting (a b : Word → Word) (w : Word) : System where
  core := { cleared with currentState := .fetch }
  vectorA := ⟨a, 0⟩
  vectorB := ⟨b, 0⟩
  vectorC := ⟨fun _ => 0, 0⟩
  chan1 := ⟨[w], []⟩

-- one block, with every word and every key its own address
theorem idea_core_enciphers_one_block :
    Serves slowly ∧ Commanded 0x20000 [] (waiting id id 0x20000) ∧
    ∃ n, let t := clocked clock slowly 0 n (waiting id id 0x20000)
      t.chan1.pending = [] ∧ t.vectorC.data 0 = 4331 ∧ t.vectorC.data 12 = 28686 ∧
        ∃ n', (clocked clock slowly 0 n'
          (waiting t.vectorC.data (inverseTable id) 0x20000)).vectorC.data 4 = 4 := by
  have hcommanded : Commanded 0x20000 [] (waiting id id 0x20000) := by
    refine ⟨rfl, rfl, fun j _ hlt => ?_, fun j hj _ => ?_⟩
    · have hend : endField 0x20000 = 4 := by decide
      change (wordAddr j).toNat < 2 ^ 16
      rw [toNat_wordAddr]
      bv_omega
    · change (wordAddr (.ofNat 32 j)).toNat < 2 ^ 16
      rw [toNat_wordAddr, BitVec.toNat_ofNat]
      omega
  obtain ⟨n, ht, hback⟩ := idea_core_enciphers serves_slowly (by decide) (by decide)
    (waiting id id 0x20000) hcommanded 0
  have hblock := ht.vectorC.block 0 (by decide)
  obtain ⟨answer, hchan1⟩ := ht.chan1
  obtain ⟨n', -, hdata⟩ := hback serves_slowly (waiting _ (inverseTable id) 0x20000) rfl rfl
    (fun _ _ _ => rfl) (inverseTable_inverts id) 0
  refine ⟨serves_slowly, hcommanded, n, by rw [hchan1], hblock.x1.trans (by decide),
    hblock.x4.trans (by decide), n', ?_⟩
  exact hdata 1 (by decide) (by decide)

end Hthreads.HwAcc.Idea
