import Hthreads.Slaves.Accelerators

/-! What the code about accelerators does to the sockets, access by access. -/

namespace Hthreads.Slaves

open Library Software

variable {κ : Type}

section Working

variable {C : Controller κ} {L : Layout}

def Controller.Ready (C : Controller κ) (acc : Huint) (c : κ) : Prop :=
  C.queue c = [] ∧ C.loaded c = acc

def Controller.Asked (C : Controller κ) (acc old : Huint) (c : κ) : Prop :=
  (C.queue c = [acc] ∧ C.loaded c = old) ∨ (C.queue c = [] ∧ C.loaded c = acc ∧ ¬ C.failed c) ∨
    (C.queue c = [] ∧ C.loaded c = old ∧ C.failed c)

def Controller.Stable (C : Controller κ) (K : κ → Prop) : Prop :=
  ∀ c c', C.Moves c c' → K c → K c'

lemma Controller.Stable.moves {K : κ → Prop} (h : C.Stable K) {c c' : κ}
    (hm : Relation.ReflTransGen C.Moves c c') (hc : K c) : K c' := by
  induction hm with
  | refl => exact hc
  | tail _ hone ih => exact h _ _ hone ih

section Documented

variable (hC : C.Documented) (acc old : Huint)

include hC

lemma Controller.Documented.ready_stable : C.Stable (C.Ready acc) := by
  rintro c c' hmove ⟨hqueue, hloaded⟩
  obtain ⟨hqueue', hloaded', -⟩ := hC.idle c c' hmove hqueue
  exact ⟨hqueue', hloaded'.trans hloaded⟩

omit acc in
lemma Controller.Documented.not_pending {c : κ} (h : C.Ready old c) :
    C.trigger c &&& 0x8000 = 0 := by
  by_contra hpending
  exact hC.pending c hpending h.1

lemma Controller.Documented.asked_stable : C.Stable (C.Asked acc old) := by
  rintro c c' hmove (⟨hqueue, hloaded⟩ | ⟨hqueue, hloaded, hok⟩ | ⟨hqueue, hloaded, hfailed⟩)
  · rcases hC.works c c' acc [] hmove hqueue with h | h | ⟨hqueue', hloaded', hfailed⟩
    · exact .inl ⟨h.1, h.2.trans hloaded⟩
    · exact .inr (.inl h)
    · exact .inr (.inr ⟨hqueue', hloaded'.trans hloaded, hfailed⟩)
  · obtain ⟨hqueue', hloaded', hiff⟩ := hC.idle c c' hmove hqueue
    exact .inr (.inl ⟨hqueue', hloaded'.trans hloaded, fun h => hok (hiff.mp h)⟩)
  · obtain ⟨hqueue', hloaded', hiff⟩ := hC.idle c c' hmove hqueue
    exact .inr (.inr ⟨hqueue', hloaded'.trans hloaded, hiff.mpr hfailed⟩)

lemma Controller.Documented.asked_full {c : κ} (h : C.Asked acc old c)
    (herror : C.status c &&& 0x78 = 0) (hfull : C.status c &&& 0x07 = 7) : C.Ready acc c := by
  obtain ⟨hqueue, hok⟩ := hC.full c herror hfull
  rcases h with ⟨hqueue', -⟩ | ⟨-, hloaded, -⟩ | ⟨-, -, hfailed⟩
  · rw [hqueue] at hqueue'
    cases hqueue'
  · exact ⟨hqueue, hloaded⟩
  · exact absurd hfailed hok

lemma Controller.Documented.asked_error {c : κ} (h : C.Asked acc old c)
    (herror : C.status c &&& 0x78 ≠ 0) : C.Ready old c := by
  obtain ⟨hqueue, hfailed⟩ := hC.error c herror
  rcases h with ⟨hqueue', -⟩ | ⟨-, -, hok⟩ | ⟨-, hloaded, -⟩
  · rw [hqueue] at hqueue'
    cases hqueue'
  · exact absurd hfailed hok
  · exact ⟨hqueue, hloaded⟩

end Documented

/-- What holds of a slave that is free: the table and the V-HWTI are right, and the slave knows
where its entry is. -/
def Settled (C : Controller κ) (L : Layout) (i : SlaveId) (x : Socket κ) : Prop :=
  x.record.acc = x.record.lastUsed ∧ C.Ready x.record.lastUsed x.controller ∧
    x.record.lastUsedPtr = L.entry i

/-- Something is going on at slave `i`, and `R` holds of the others. -/
structure At (i : SlaveId) (v : Record) (K : κ → Prop) (R : SlaveId → Socket κ → Prop)
    (s : Sockets κ) : Prop where
  record : (s i).record = v
  controller : K (s i).controller
  others : ∀ j, j ≠ i → R j (s j)

/-- `R` does not depend on what the controllers do on their own. -/
def Lasting (C : Controller κ) (R : SlaveId → Socket κ → Prop) : Prop :=
  ∀ j v, C.Stable fun c => R j ⟨v, c⟩

/-- An access that stores nothing in the table entries of others. -/
def SocketAccess.Local (L : Layout) (i : SlaveId) (a : SocketAccess) : Prop :=
  ∀ j v, j ≠ i → a.stored L j v = v

lemma At.holding {i : SlaveId} {v : Record} {K : κ → Prop} {R : SlaveId → Socket κ → Prop}
    {t : Sockets κ} {c : κ} (h : At i v (· = c) R t) (hc : K c) : At i v K R t :=
  ⟨h.record, h.controller ▸ hc, h.others⟩

section Steps

variable {i : SlaveId} {v : Record} {K : κ → Prop} {R : SlaveId → Socket κ → Prop} {s t : Sockets κ}
  {a : SocketAccess} (hR : Lasting C R) (hK : C.Stable K) (h : At i v K R s)

include hR hK h

lemma At.moves (hm : s.Moves C t) : At i v K R t where
  record := (hm i).1.trans h.record
  controller := hK.moves (hm i).2 h.controller
  others := by
    intro j hj
    have hmoved := Controller.Stable.moves (hR j (s j).record) (hm j).2 (h.others j hj)
    rw [← (hm j).1] at hmoved
    exact hmoved

lemma At.step (hlocal : a.Local L i) {b : Answer} (hstep : Sockets.Step C L (.socket i a) s t b) :
    ∃ c, K c ∧ (∀ w, a.answer C ⟨v, c⟩ = some w → b.word = w) ∧
      At i (a.stored L i (a.record v)) (· = a.controller C c) R t := by
  obtain ⟨-, m, hm, hanswer, rfl⟩ := hstep
  have hmid := h.moves hR hK hm
  have hsocket : m i = ⟨v, (m i).controller⟩ := by rw [← hmid.record]
  refine ⟨(m i).controller, hmid.controller, ?_, ?_, ?_, ?_⟩
  · rw [← hsocket]
    exact hanswer
  · rw [Sockets.apply, if_pos rfl, hmid.record]
  · rw [Sockets.apply, if_pos rfl]
  · intro j hj
    rw [Sockets.apply, if_neg hj, hlocal j _ hj]
    exact hmid.others j hj

lemma At.always_read (hlocal : a.Local L i) :
    (SocketCode.read i a).Always (Sockets.Step C L) (fun w t =>
      ∃ c, K c ∧ (∀ w', a.answer C ⟨v, c⟩ = some w' → w = w') ∧
        At i (a.stored L i (a.record v)) (· = a.controller C c) R t) s := by
  rw [SocketCode.read, Program.always_bind, Program.always_issue]
  exact fun t b hstep => h.step hR hK hlocal hstep

lemma At.always_perform (hlocal : a.Local L i) :
    (SocketCode.perform i a).Always (Sockets.Step C L) (fun _ t =>
      ∃ c, K c ∧ At i (a.stored L i (a.record v)) (· = a.controller C c) R t) s := by
  rw [SocketCode.perform, Program.always_bind, Program.always_issue]
  intro t b hstep
  obtain ⟨c, hc, -, hat⟩ := h.step hR hK hlocal hstep
  exact ⟨c, hc, hat⟩

end Steps

section Reconfiguring

variable {i : SlaveId} {v : Record} {R : SlaveId → Socket κ → Prop} {s : Sockets κ}
  (hC : C.Documented) (hR : Lasting C R)

include hC hR

lemma At.always_pollStatus {acc old : Huint} (n : ℕ) (h : At i v (C.Asked acc old) R s) :
    (SocketCode.pollStatus i n).Always (Sockets.Step C L) (fun status t =>
      (status = success ∧ At i v (C.Ready acc) R t) ∨
      (status = failure ∧ At i v (C.Ready old) R t)) s := by
  induction n generalizing s with
  | zero => exact fun _ _ hstep => hstep.elim
  | succ n ih =>
    rw [SocketCode.pollStatus, Program.always_bind]
    refine (h.always_read hR (hC.asked_stable acc old) fun _ _ _ => rfl).mono ?_
    rintro w t ⟨c, hc, hanswer, hat⟩
    rw [hanswer _ rfl]
    split_ifs with herror hfull
    · exact .inr ⟨rfl, hat.holding (hC.asked_error acc old hc herror)⟩
    · exact ih (hat.holding hc)
    · rw [ne_eq, not_not] at herror hfull
      exact .inl ⟨rfl, hat.holding (hC.asked_full acc old hc herror hfull)⟩

lemma At.always_performPR {acc : Accelerator} {old : Huint} (n : ℕ) (h : At i v (C.Ready old) R s) :
    (SocketCode.performPR n i i acc.code).Always (Sockets.Step C L) (fun status t =>
      (status = success ∧ At i { v with lastUsed := acc.code } (C.Ready acc.code) R t) ∨
      (status = failure ∧ At i v (C.Ready old) R t)) s := by
  rw [SocketCode.performPR, Program.always_bind]
  refine (h.always_read hR (hC.ready_stable old) fun _ _ _ => rfl).mono ?_
  rintro w t₁ ⟨c, hc, hanswer, hat₁⟩
  have hready : At i v (C.Ready old) R t₁ := hat₁.holding hc
  rw [hanswer _ rfl, if_pos (hC.not_pending old hc), Program.always_bind]
  refine (hready.always_perform hR (hC.ready_stable old) fun _ _ _ => rfl).mono ?_
  rintro - t₂ ⟨c, hc, hat₂⟩
  obtain ⟨hqueue, hloaded⟩ := hC.accepts c acc (hC.not_pending old hc)
  have hasked : At i v (C.Asked acc.code old) R t₂ := by
    refine ⟨hat₂.record, ?_, hat₂.others⟩
    rw [hat₂.controller, SocketAccess.controller, Controller.Asked, hqueue, hloaded, hc.1, hc.2]
    exact .inl ⟨rfl, rfl⟩
  rw [Program.always_bind]
  refine (hasked.always_pollStatus hC hR n).mono ?_
  rintro status t₃ (⟨rfl, hat₃⟩ | ⟨rfl, hat₃⟩)
  · rw [if_neg (by decide), Program.always_bind]
    refine (hat₃.always_perform hR (hC.ready_stable acc.code) fun _ _ _ => rfl).mono ?_
    rintro - t₄ ⟨c, hc, hat₄⟩
    exact .inl ⟨rfl, hat₄.holding hc⟩
  · rw [if_pos rfl]
    exact .inr ⟨rfl, hat₃⟩

omit hC hR in
lemma slaveNum_lt (i : SlaveId) : (SocketCode.slaveNum i).toNat < 16 := by
  rw [SocketCode.slaveNum, BitVec.toNat_ofNat, Nat.mod_eq_of_lt (by omega)]
  exact i.isLt

omit hC hR in
lemma slaveNum_eq (i : SlaveId) :
    (⟨(SocketCode.slaveNum i).toNat, slaveNum_lt i⟩ : SlaveId) = i := by
  ext
  change (BitVec.ofNat 32 i).toNat = i
  rw [BitVec.toNat_ofNat, Nat.mod_eq_of_lt (by omega)]

omit hC hR in
lemma hostPerformPR_eq (n : ℕ) (acc : Huint) :
    SocketCode.hostPerformPR n (SocketCode.slaveNum i) acc = SocketCode.performPR n i i acc := by
  rw [SocketCode.hostPerformPR, dif_pos (slaveNum_lt i), slaveNum_eq]

omit hC hR in
lemma slavePerformPR_eq (n : ℕ) (acc : Huint) :
    SocketCode.slavePerformPR n i (SocketCode.slaveNum i) acc = SocketCode.performPR n i i acc := by
  rw [SocketCode.slavePerformPR, dif_pos (slaveNum_lt i), slaveNum_eq]

/-- The record after a thread has asked for accelerators: the register says what is loaded, and the
rest of what matters here is as before. -/
structure AfterCalls (asked : List Huint) (v v' : Record) : Prop where
  acc : v'.acc = v.acc
  firstUsedPtr : v'.firstUsedPtr = v.firstUsedPtr
  lastUsedPtr : v'.lastUsedPtr = v.lastUsedPtr
  prevLastUsed : v'.prevLastUsed = v.prevLastUsed
  lastUsed : v'.lastUsed = v.lastUsed ∨ v'.lastUsed ∈ asked

omit hC in
lemma At.always_noteFirst {K : κ → Prop} (hK : C.Stable K) (h : At i v K R s) (acc : Huint)
    (asked : List Huint) {rest : SocketCode Bool} {Q : Bool → Sockets κ → Prop}
    (hrest : ∀ t v', At i v' K R t → v'.lastUsed = v.lastUsed → AfterCalls asked v v' →
      rest.Always (Sockets.Step C L) Q t) :
    (do
      let first ← SocketCode.read i (.own (.read .firstUsed))
      (if first = noAcc then SocketCode.perform i (.own (.write .firstUsed acc)) else pure ())
      rest).Always (Sockets.Step C L) Q s := by
  rw [Program.always_bind]
  refine (h.always_read hR hK fun _ _ _ => rfl).mono ?_
  rintro first t ⟨c, hc, -, hat⟩
  rw [Program.always_bind]
  split_ifs
  · refine ((hat.holding hc).always_perform hR hK fun _ _ _ => rfl).mono ?_
    rintro - t' ⟨c, hc, hat'⟩
    exact hrest t' _ (hat'.holding hc) rfl ⟨rfl, rfl, rfl, rfl, .inl rfl⟩
  · exact hrest t v (hat.holding hc) rfl ⟨rfl, rfl, rfl, rfl, .inl rfl⟩

lemma At.always_useHW {acc : Accelerator} {size : Huint} (n : ℕ)
    (h : At i v (C.Ready v.lastUsed) R s) :
    (SocketCode.useHW n i acc.code size).Always (Sockets.Step C L) (fun _ t =>
      ∃ v', At i v' (C.Ready v'.lastUsed) R t ∧ AfterCalls [acc.code] v v') s := by
  have hstable := hC.ready_stable v.lastUsed
  rw [SocketCode.useHW, Program.always_bind]
  refine (h.always_read hR hstable fun _ _ _ => rfl).mono ?_
  rintro current t₁ ⟨c, hc, -, hat₁⟩
  rw [Program.always_bind]
  refine ((hat₁.holding hc).always_read hR hstable fun _ _ _ => rfl).mono ?_
  rintro hasPR t₂ ⟨c, hc, -, hat₂⟩
  rw [apply_ite (fun p : SocketCode Bool => p.Always _ _ t₂)]
  split
  · exact ⟨v, hat₂.holding hc, rfl, rfl, rfl, rfl, .inl rfl⟩
  refine (hat₂.holding hc).always_noteFirst hR hstable acc.code [acc.code] ?_
  intro t₃ v' hat₃ (hlast : v'.lastUsed = v.lastUsed) (hafter : AfterCalls [acc.code] v v')
  rw [← hlast] at hat₃
  have hkept : ∃ w, At i w (C.Ready w.lastUsed) R t₃ ∧ AfterCalls [acc.code] v w :=
    ⟨v', hat₃, hafter⟩
  split_ifs
  · exact hkept
  · rw [Program.always_bind]
    refine (hat₃.always_read hR (hC.ready_stable v'.lastUsed) fun _ _ _ => rfl).mono ?_
    rintro worthwhile t₄ ⟨c, hc, -, hat₄⟩
    split_ifs
    · rw [slavePerformPR_eq, Program.always_bind]
      refine ((hat₄.holding hc).always_performPR hC hR n).mono ?_
      rintro status t₅ (⟨rfl, hat₅⟩ | ⟨rfl, hat₅⟩)
      · exact ⟨_, hat₅, hafter.acc, hafter.firstUsedPtr, hafter.lastUsedPtr, hafter.prevLastUsed,
          .inr (List.mem_singleton_self _)⟩
      · exact ⟨v', hat₅, hafter⟩
    · exact ⟨v', hat₄.holding hc, hafter⟩
  · exact hkept

omit hC hR in
lemma AfterCalls.trans {asked more : List Huint} {u w : Record} (h : AfterCalls asked u v)
    (h' : AfterCalls more v w) : AfterCalls (asked ++ more) u w where
  acc := h'.acc.trans h.acc
  firstUsedPtr := h'.firstUsedPtr.trans h.firstUsedPtr
  lastUsedPtr := h'.lastUsedPtr.trans h.lastUsedPtr
  prevLastUsed := h'.prevLastUsed.trans h.prevLastUsed
  lastUsed := by
    rw [List.mem_append]
    rcases h'.lastUsed with hsame | hmem
    · rw [hsame]
      exact h.lastUsed.imp_right .inl
    · exact .inr (.inr hmem)

lemma At.always_callAll {calls : List (Accelerator × Huint)} (n : ℕ)
    (h : At i v (C.Ready v.lastUsed) R s) :
    (SocketCode.callAll n i calls).Always (Sockets.Step C L) (fun _ t =>
      ∃ v', At i v' (C.Ready v'.lastUsed) R t ∧
        AfterCalls (calls.map fun call => call.1.code) v v') s := by
  induction calls generalizing s v with
  | nil => exact ⟨v, h, rfl, rfl, rfl, rfl, .inl rfl⟩
  | cons call rest ih =>
    rw [SocketCode.callAll, SocketCode.forEach, Program.always_bind, Program.always_bind]
    refine (h.always_useHW hC hR n).mono ?_
    rintro - t ⟨v', hat, hafter⟩
    refine (ih hat).mono ?_
    rintro - t' ⟨v'', hat', hafter'⟩
    exact ⟨v'', hat', hafter.trans hafter'⟩

lemma At.always_reconfigure {acc : Accelerator} {old : Huint} (n : ℕ)
    (h : At i v (C.Ready old) R s) :
    (SocketCode.reconfigure n i acc).Always (Sockets.Step C L) (fun _ t =>
      At i { v with acc := acc.code, lastUsed := acc.code } (C.Ready acc.code) R t) s := by
  rw [SocketCode.reconfigure, hostPerformPR_eq, Program.always_bind]
  refine (h.always_performPR hC hR n).mono ?_
  rintro status t (⟨rfl, hat⟩ | ⟨rfl, hat⟩)
  · rw [if_neg (not_not.mpr rfl)]
    refine (hat.always_perform hR (hC.ready_stable _) fun _ _ _ => rfl).mono ?_
    rintro - t' ⟨c, hc, hat'⟩
    exact hat'.holding hc
  · rw [if_pos (by decide)]
    exact fun _ _ hstep => hstep.elim

end Reconfiguring

section Exiting

def OwnStep (C : Controller κ) (L : Layout) (i : SlaveId) (a : Access) :
    Sockets κ → Sockets κ → Answer → Prop :=
  Sockets.Step C L (.socket i (.own a))

variable {i : SlaveId} {v : Record} {K : κ → Prop} {R : SlaveId → Socket κ → Prop} {s : Sockets κ}
  {α β : Type}

def Keeps (C : Controller κ) (L : Layout) (i : SlaveId) (v : Record) (K : κ → Prop)
    (R : SlaveId → Socket κ → Prop) (p : Code α) : Prop :=
  ∀ s, At i v K R s → p.Always (OwnStep C L i) (fun _ => At i v K R) s

lemma Keeps.before {p : Code α} {f : α → Code β} {Q : β → Sockets κ → Prop}
    (hp : Keeps C L i v K R p) (h : At i v K R s)
    (hf : ∀ a t, At i v K R t → (f a).Always (OwnStep C L i) Q t) :
    (p >>= f).Always (OwnStep C L i) Q s := by
  rw [Program.always_bind]
  exact (hp s h).mono hf

lemma Keeps.bind {p : Code α} {f : α → Code β} (hp : Keeps C L i v K R p)
    (hf : ∀ a, Keeps C L i v K R (f a)) : Keeps C L i v K R (p >>= f) :=
  fun _ h => hp.before h hf

lemma Keeps.pure (a : α) : Keeps C L i v K R (Pure.pure a : Code α) := fun _ h => h

section Issuing

variable (hR : Lasting C R) (hK : C.Stable K)

include hR hK

lemma At.always_own {a : Access} (h : At i v K R s) (hlocal : (SocketAccess.own a).Local L i) :
    (Program.issue a).Always (OwnStep C L i) (fun b t =>
      (∀ w, (∀ c, (SocketAccess.own a).answer C ⟨v, c⟩ = some w) → b.word = w) ∧
        At i ((SocketAccess.own a).stored L i ((SocketAccess.own a).record v)) K R t) s := by
  rw [Program.always_issue]
  intro t b hstep
  obtain ⟨c, hc, hanswer, hat⟩ := h.step hR hK hlocal hstep
  exact ⟨fun w hw => hanswer w (hw c), hat.holding hc⟩

lemma Keeps.issue {a : Access} (hrecord : (SocketAccess.own a).record v = v)
    (hstored : ∀ j w, (SocketAccess.own a).stored L j w = w) :
    Keeps C L i v K R (Program.issue a) := by
  intro s h
  refine (h.always_own hR hK fun j w _ => hstored j w).mono fun b t ht => ?_
  rw [hstored, hrecord] at ht
  exact ht.2

lemma Keeps.perform {a : Access} (hrecord : (SocketAccess.own a).record v = v)
    (hstored : ∀ j w, (SocketAccess.own a).stored L j w = w) :
    Keeps C L i v K R (Code.perform a) :=
  (Keeps.issue hR hK hrecord hstored).bind fun _ => .pure _

lemma Keeps.time {a : Access} (hrecord : (SocketAccess.own a).record v = v)
    (hstored : ∀ j w, (SocketAccess.own a).stored L j w = w) :
    Keeps C L i v K R (Code.time a) :=
  (Keeps.issue hR hK hrecord hstored).bind fun _ => .pure _

lemma Keeps.read (r : Register) : Keeps C L i v K R (Code.read r) :=
  (Keeps.issue hR hK rfl fun _ _ => rfl).bind fun _ => .pure _

lemma At.always_waitForGoCommand (h : At i v K R s) :
    Code.waitForGoCommand.Always (OwnStep C L i) (fun _ t =>
      At i { v with firstUsed := noAcc } K R t) s := by
  rw [Code.waitForGoCommand, Program.always_bind]
  refine ((Keeps.perform hR hK rfl fun _ _ => rfl) s h).mono fun _ t ht => ?_
  rw [Program.always_bind, Code.perform, Program.always_bind]
  refine (ht.always_own hR hK fun _ _ _ => rfl).mono fun _ t' ht' => ?_
  refine Keeps.bind (.perform hR hK rfl fun _ _ => rfl) (fun _ => ?_) t' ht'.2
  refine .bind (.time hR hK rfl fun _ _ => rfl) fun now => ?_
  exact .bind (.perform hR hK rfl fun _ _ => rfl) fun _ => .perform hR hK rfl fun _ _ => rfl

lemma At.always_ownRead {r : Register} (w : Huint) (h : At i v K R s)
    (hw : ∀ c, (SocketAccess.own (.read r)).answer C ⟨v, c⟩ = some w) :
    (Code.read r).Always (OwnStep C L i) (fun w' t => w' = w ∧ At i v K R t) s := by
  rw [Code.read, Program.always_bind]
  exact (h.always_own hR hK fun _ _ _ => rfl).mono fun b t ht => ⟨ht.1 w hw, ht.2⟩

lemma At.always_reportFirstUsed {funcId : Huint} (hptr : v.firstUsedPtr = L.profile funcId)
    (h : At i v K R s) :
    Code.reportFirstUsed.Always (OwnStep C L i) (fun _ t => At i v K R t) s := by
  rw [Code.reportFirstUsed, Program.always_bind]
  refine (h.always_ownRead hR hK v.firstUsed fun _ => rfl).mono ?_
  rintro first t₁ ⟨-, hat₁⟩
  split_ifs
  · rw [Program.always_bind]
    refine (hat₁.always_ownRead hR hK v.firstUsedPtr fun _ => rfl).mono ?_
    rintro ptr t₂ ⟨rfl, hat₂⟩
    split_ifs
    · refine Keeps.bind (.read hR hK _) (fun acc => ?_) t₂ hat₂
      refine .perform hR hK rfl fun j w => ?_
      exact if_neg (hptr ▸ L.profile_ne_entry funcId j)
    · exact hat₂
  · exact hat₁

lemma At.always_reportLastUsed (hptr : v.lastUsedPtr = L.entry i) (h : At i v K R s) :
    Code.reportLastUsed.Always (OwnStep C L i) (fun _ t =>
      At i (if v.lastUsed ≠ v.prevLastUsed then
        { v with acc := v.lastUsed, prevLastUsed := v.lastUsed } else v) K R t) s := by
  rw [Code.reportLastUsed, Program.always_bind]
  refine (h.always_ownRead hR hK v.lastUsed fun _ => rfl).mono ?_
  rintro last t₁ ⟨rfl, hat₁⟩
  rw [Program.always_bind]
  refine (hat₁.always_own hR hK fun _ _ _ => rfl).mono ?_
  rintro prev t₂ ⟨hprev, (hat₂ : At i v K R t₂)⟩
  rw [hprev v.prevLastUsed fun _ => rfl]
  split_ifs
  · rw [Program.always_bind]
    refine (hat₂.always_ownRead hR hK v.lastUsedPtr fun _ => rfl).mono ?_
    rintro ptr t₃ ⟨rfl, hat₃⟩
    rw [if_pos (hptr ▸ L.entry_ne_null i), Program.always_bind, Program.always_bind]
    refine (hat₃.always_ownRead hR hK v.lastUsed fun _ => rfl).mono ?_
    rintro acc t₄ ⟨rfl, hat₄⟩
    have hlocal : (SocketAccess.own (.store v.lastUsedPtr v.lastUsed)).Local L i :=
      fun j w hj => if_neg fun heq => hj (L.entry_injective (hptr.symm.trans heq)).symm
    rw [Code.perform, Program.always_bind]
    refine (hat₄.always_own hR hK hlocal).mono ?_
    rintro - t₅ ⟨-, hat₅⟩
    have hstored : SocketAccess.stored L i v (.own (.store v.lastUsedPtr v.lastUsed)) =
      { v with acc := v.lastUsed } := if_pos hptr
    change At i (SocketAccess.stored L i v _) K R t₅ at hat₅
    rw [hstored] at hat₅
    rw [Program.always_pure, Program.always_bind]
    refine (hat₅.always_ownRead hR hK v.lastUsed fun _ => rfl).mono ?_
    rintro acc t₆ ⟨rfl, hat₆⟩
    rw [Code.perform, Program.always_bind]
    exact (hat₆.always_own hR hK fun _ _ _ => rfl).mono fun _ _ ht => ht.2
  · exact hat₂

lemma At.always_procHwThreadExit {funcId : Huint} (ret : Huint)
    (hfirst : v.firstUsedPtr = L.profile funcId) (hlast : v.lastUsedPtr = L.entry i)
    (h : At i v K R s) :
    (Code.procHwThreadExit ret).Always (OwnStep C L i) (fun _ t =>
      At i (if v.lastUsed ≠ v.prevLastUsed then
        { v with acc := v.lastUsed, prevLastUsed := v.lastUsed } else v) K R t) s := by
  refine Keeps.before (.read hR hK _) h fun _ s₁ h₁ => ?_
  refine Keeps.before (.time hR hK rfl fun _ _ => rfl) h₁ fun stop s₂ h₂ => ?_
  refine Keeps.before (.time hR hK rfl fun _ _ => rfl) h₂ fun start s₃ h₃ => ?_
  refine Keeps.before (.perform hR hK rfl fun _ _ => rfl) h₃ fun _ s₄ h₄ => ?_
  refine Keeps.before (.read hR hK _) h₄ fun tid s₅ h₅ => ?_
  refine Keeps.before (.perform hR hK rfl fun _ _ => rfl) h₅ fun _ s₆ h₆ => ?_
  have hresult : Keeps C L i v K R (if ret ≠ null then do
      Code.perform (.write .result ret)
      Code.perform (.setRetval tid ret)
    else pure ()) := by
    split_ifs
    · exact .bind (.perform hR hK rfl fun _ _ => rfl) fun _ => .perform hR hK rfl fun _ _ => rfl
    · exact .pure _
  refine hresult.before h₆ fun _ s₇ h₇ => ?_
  rw [Program.always_bind]
  refine (h₇.always_reportFirstUsed hR hK hfirst).mono fun _ s₈ h₈ => ?_
  rw [Program.always_bind]
  refine (h₈.always_reportLastUsed hR hK hlast).mono fun _ s₉ h₉ => ?_
  refine Keeps.bind (.read hR hK _) (fun tid => ?_) s₉ h₉
  refine .bind (.bind (.issue hR hK rfl fun _ _ => rfl) fun _ => .pure _) fun status => ?_
  exact .bind (.perform hR hK rfl fun _ _ => rfl) fun _ => .pure _

end Issuing

end Exiting

end Working

end Hthreads.Slaves
