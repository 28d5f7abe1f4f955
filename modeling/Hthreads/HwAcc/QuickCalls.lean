import Hthreads.HwAcc.QuickParting
import Hthreads.HwAcc.Channel

/-! The calls of the quick sort core, and the range that they sort. -/

namespace Hthreads.HwAcc.QuickSort

open Library

/-- The calls are returned from one after the other, each to the frames that it was made with. -/
inductive Matched : List Call → Prop
  | nil : Matched []
  | call {code : BitVec 16} {callers : List Frame} {l l' : List Call} (h : Matched l)
      (h' : Matched l') : Matched (.call code callers :: l ++ .ret code callers :: l')

/-- No two values of a range have a sum that overflows. -/
def NoOverflow (t : Set Word) (mem : Word → Word) : Prop :=
  ∀ i ∈ t, ∀ j ∈ t, i ≠ j → (mem i).toNat + (mem j).toNat < 2 ^ 32

lemma NoOverflow.mono {t u : Set Word} {mem : Word → Word} (h : NoOverflow u mem) (htu : t ⊆ u) :
    NoOverflow t mem := fun i hi j hj hij => h i (htu hi) j (htu hj) hij

lemma NoOverflow.rearranged {t : Set Word} {mem mem' : Word → Word} (h : NoOverflow t mem)
    (hperm : Rearranges t mem mem') : NoOverflow t mem' := by
  intro i hi j hj hij
  obtain ⟨i', hi', j', hj', hne, hvi, hvj⟩ := hperm.sources hi hj hij
  rw [hvi, hvj]
  exact h i' hi' j' hj' hne

lemma ascends_of_parted {mem₀ mem₁ mem₂ mem₃ : Word → Word} {s e m : ℕ} (he : e < 2 ^ 13)
    (hparted : Parted mem₀ s e mem₁ m) (hleft : Rearranges (words s m) mem₁ mem₂)
    (hright : Rearranges (words (m + 1) e) mem₂ mem₃)
    (hasc : Ascends BitVec.toNat (Set.Icc s m) (mem₂ ∘ addr))
    (hasc' : Ascends BitVec.toNat (Set.Icc (m + 1) e) (mem₃ ∘ addr)) :
    Ascends BitVec.toNat (Set.Icc s e) (mem₃ ∘ addr) := by
  obtain ⟨p, hlow, hhigh⟩ := hparted.parts
  have hme := hparted.lt_end
  have hstays : ∀ i, i ≤ m → mem₃ (addr i) = mem₂ (addr i) := by
    intro i hi
    refine hright.outside ?_
    rintro ⟨j, ⟨hj, hj'⟩, heq⟩
    have hij := addr_inj (by omega) (by omega) heq
    omega
  have hsmall : ∀ a ∈ words s m, mem₂ a ≤ p := by
    refine hleft.forall_mem (P := fun v => v ≤ p) ?_
    rintro _ ⟨i, ⟨hi, hi'⟩, rfl⟩
    exact hlow i hi hi'
  have hlarge : ∀ a ∈ words (m + 1) e, p ≤ mem₃ a := by
    refine hright.forall_mem (P := fun v => p ≤ v) ?_
    rintro _ ⟨i, ⟨hi, hi'⟩, rfl⟩
    have hkept : mem₂ (addr i) = mem₁ (addr i) := by
      refine hleft.outside ?_
      rintro ⟨j, ⟨hj, hj'⟩, heq⟩
      have hij := addr_inj (by omega) (by omega) heq
      omega
    rw [hkept]
    exact hhigh i hi hi'
  intro i hi j hj hij
  rw [Function.comp_apply, Function.comp_apply]
  by_cases hjm : j ≤ m
  · have h := hasc i ⟨hi.1, by omega⟩ j ⟨hj.1, hjm⟩ hij
    rwa [Function.comp_apply, Function.comp_apply, ← hstays i (by omega), ← hstays j hjm] at h
  · by_cases him : i ≤ m
    · have hi' : mem₃ (addr i) ≤ p := by
        rw [hstays i him]
        exact hsmall _ (addr_mem_words hi.1 him)
      exact BitVec.le_trans hi' (hlarge _ (addr_mem_words (by omega) hj.2))
    · exact hasc' i ⟨by omega, hi.2⟩ j ⟨by omega, hj.2⟩ hij

section Frames

variable {inputs : ℕ → ChanInput} {inside : Word → Bool} {ack : Word} {st : State} {v v' : Vars}
  {x x' : Link} {a : Bram 32 32} {f : Frame} {fs : List Frame} {args : List Word}
    {calls : List Call}
  {w : Word} {s e m : ℕ}

def Sends (st : State) (v : Vars) (x : Link) (v' : Vars) (x' : Link) : Prop :=
  ∀ w, comb w ⟨st, v, x⟩ = (⟨.sendRequest, v', x'⟩, {})

lemma Sends.asks (h : Sends st v x v' x') (hs : Serves inputs) {t t' : Host}
    (hfirst : t.first = none) (hop : x'.opcode ≠ opcodeReturn)
    (hanswer : t.answer ack x'.opcode x'.param1 x'.param2 = (t', w)) :
    ∃ x₁ : Link, x₁.mblazeRet = w ∧ Leads (clock inside ack) inputs (sys st v x a t)
      (sys x'.returnState v' x₁ a t') := by
  refine ⟨{ x' with mblazeRet := w }, rfl, (moves fun i => h _).trans ?_⟩
  have hrequest : Leads (clock inside ack) inputs (sys .sendRequest v' x' a t)
      (sys x'.returnState v'
        { x' with mblazeRet := (t.answer ack x'.opcode x'.param1 x'.param2).2 } a
        (t.answer ack x'.opcode x'.param1 x'.param2).1) := request hs hfirst hop
  rwa [hanswer] at hrequest

namespace Sends

variable {st' : State} {n : BitVec 16} {l : List Word}

lemma declare
    (h : Sends st v x v' { x with opcode := opcodeDeclare, param1 := n, returnState := st' })
    (hs : Serves inputs) (hl : List.replicate n.toNat 0 = l) :
    ∃ x₁ : Link, x₁.mblazeRet = ack ∧ Leads (clock inside ack) inputs
      (sys st v x a ⟨f :: fs, args, none, calls⟩)
      (sys st' v' x₁ a ⟨⟨f.code, l⟩ :: fs, args, none, calls⟩) :=
  hl ▸ h.asks hs rfl (by decide : opcodeDeclare ≠ opcodeReturn) rfl

lemma read (h : Sends st v x v' { x with opcode := opcodeRead, param1 := n, returnState := st' })
    (hs : Serves inputs) (hw : f.locals.getD n.toNat 0 = w) :
    ∃ x₁ : Link, x₁.mblazeRet = w ∧ Leads (clock inside ack) inputs
      (sys st v x a ⟨f :: fs, args, none, calls⟩) (sys st' v' x₁ a ⟨f :: fs, args, none, calls⟩) :=
  hw ▸ h.asks hs rfl (by decide : opcodeRead ≠ opcodeReturn) rfl

lemma write (h : Sends st v x v'
      { x with opcode := opcodeWrite, param1 := n, param2 := w, returnState := st' })
    (hs : Serves inputs) (hl : f.locals.set n.toNat w = l) :
    ∃ x₁ : Link, x₁.mblazeRet = ack ∧ Leads (clock inside ack) inputs
      (sys st v x a ⟨f :: fs, args, none, calls⟩)
      (sys st' v' x₁ a ⟨⟨f.code, l⟩ :: fs, args, none, calls⟩) :=
  hl ▸ h.asks hs rfl (by decide : opcodeWrite ≠ opcodeReturn) rfl

lemma push (h : Sends st v x v' { x with opcode := opcodePush, param2 := w, returnState := st' })
    (hs : Serves inputs) : ∃ x₁ : Link, x₁.mblazeRet = ack ∧ Leads (clock inside ack) inputs
      (sys st v x a ⟨fs, args, none, calls⟩) (sys st' v' x₁ a ⟨fs, w :: args, none, calls⟩) :=
  h.asks hs rfl (by decide : opcodePush ≠ opcodeReturn) rfl

lemma pop (h : Sends st v x v' { x with opcode := opcodePop, returnState := st' })
    (hs : Serves inputs) : ∃ x₁ : Link, x₁.mblazeRet = w ∧ Leads (clock inside ack) inputs
      (sys st v x a ⟨fs, w :: args, none, calls⟩) (sys st' v' x₁ a ⟨fs, args, none, calls⟩) :=
  h.asks hs rfl (by decide : opcodePop ≠ opcodeReturn) rfl

lemma call (h : Sends st v x v' { x with opcode := opcodeCall, param1 := n, returnState := st' })
    (hs : Serves inputs) : ∃ x₁ : Link, x₁.mblazeRet = ack ∧ Leads (clock inside ack) inputs
      (sys st v x a ⟨fs, args, none, calls⟩)
      (sys st' v' x₁ a ⟨⟨n, []⟩ :: fs, args, none, calls ++ [Call.call n fs]⟩) :=
  h.asks hs rfl (by decide : opcodeCall ≠ opcodeReturn) rfl

lemma finish (h : Sends st v x v' { x with opcode := 0, param1 := n, returnState := st' })
    (hs : Serves inputs) : ∃ x₁ : Link, x₁.mblazeRet = ack ∧ Leads (clock inside ack) inputs
      (sys st v x a ⟨fs, args, none, calls⟩)
      (sys st' v' x₁ a ⟨fs, args, none, calls ++ [Call.done]⟩) :=
  h.asks hs rfl (by decide : (0 : BitVec 6) ≠ opcodeReturn) rfl

end Sends

variable (inside ack f fs args calls)

lemma enters (hs : Serves inputs) (s e : ℕ) (v : Vars) (x : Link) (a : Bram 32 32) :
    ∃ left right pivot x', Leads (clock inside ack) inputs
      (sys .quicksort1 v x a ⟨f :: fs, addr s :: addr e :: args, none, calls⟩)
      (sys .quicksort6 (ptrs s e s e left right pivot) x' a
        ⟨⟨f.code, [0, 0]⟩ :: fs, args, none, calls⟩) := by
  obtain ⟨x₁, hx₁, hstart⟩ : ∃ x₁ : Link, x₁.mblazeRet = addr s ∧ Leads (clock inside ack) inputs
      (sys .quicksort1 v x a ⟨f :: fs, addr s :: addr e :: args, none, calls⟩)
      (sys .quicksort2 v x₁ a ⟨f :: fs, addr e :: args, none, calls⟩) :=
    Sends.pop (fun _ => rfl) hs
  obtain ⟨x₂, hx₂, hend⟩ : ∃ x₂ : Link, x₂.mblazeRet = addr e ∧ Leads (clock inside ack) inputs
      (sys .quicksort2 v x₁ a ⟨f :: fs, addr e :: args, none, calls⟩)
      (sys .quicksort3 { v with startPtr := x₁.mblazeRet } x₂ a ⟨f :: fs, args, none, calls⟩) :=
    Sends.pop (fun _ => rfl) hs
  let v₂ : Vars := { v with startPtr := x₁.mblazeRet, endPtr := x₂.mblazeRet }
  obtain ⟨x₃, -, hdeclare⟩ : ∃ x₃ : Link, x₃.mblazeRet = ack ∧ Leads (clock inside ack) inputs
      (sys .quicksort4 v₂ x₂ a ⟨f :: fs, args, none, calls⟩)
      (sys .quicksort5 v₂ x₃ a ⟨⟨f.code, [0, 0]⟩ :: fs, args, none, calls⟩) :=
    Sends.declare (fun _ => rfl) hs rfl
  refine ⟨v.left, v.right, v.pivot, x₃, hstart.trans (hend.trans (.trans (moves fun _ => rfl)
    (hdeclare.trans ?_)))⟩
  rw [ptrs, ← hx₁, ← hx₂]
  exact moves fun _ => rfl

lemma reads_ends {mem : Word → Word} {d left right pivot : Word} {h : Host} (he : e < 2 ^ 13)
    (hse : s < e) (hs : inside (addr s) = true) (he' : inside (addr e) = true) :
    Leads (clock inside ack) inputs
      (sys .quicksort6 (ptrs s e s e left right pivot) x ⟨mem, d⟩ h)
      (sys .quicksortDo (ptrs s e s e (mem (addr s)) (mem (addr e))
        (0#1 ++ (mem (addr s) + mem (addr e)).extractLsb' 1 31)) x ⟨mem, mem (addr e)⟩ h) := by
  have hlt : addr s < addr e := (addr_lt_iff (by omega) he).mpr hse
  have hcheck : Leads (clock inside ack) inputs
      (sys .quicksort6 (ptrs s e s e left right pivot) x ⟨mem, d⟩ h)
      (sys .quicksort7 (ptrs s e s e left right pivot) x ⟨mem, d⟩ h) :=
    moves fun _ => if_neg (BitVec.not_le.mpr hlt)
  have hread : Leads (clock inside ack) inputs
      (sys .quicksort7 (ptrs s e s e left right pivot) x ⟨mem, d⟩ h)
      (sys .quicksort9 (ptrs s e s e (mem (addr s)) right pivot) x ⟨mem, mem (addr e)⟩ h) :=
    (reads hs fun _ => rfl).trans (reads he' fun _ => rfl)
  have hright : Leads (clock inside ack) inputs
      (sys .quicksort9 (ptrs s e s e (mem (addr s)) right pivot) x ⟨mem, mem (addr e)⟩ h)
      (sys .quicksortA (ptrs s e s e (mem (addr s)) (mem (addr e)) pivot) x
        ⟨mem, mem (addr e)⟩ h) := moves fun _ => rfl
  have hsum : Leads (clock inside ack) inputs
      (sys .quicksortA (ptrs s e s e (mem (addr s)) (mem (addr e)) pivot) x
        ⟨mem, mem (addr e)⟩ h)
      (sys .quicksortB (ptrs s e s e (mem (addr s)) (mem (addr e)) (mem (addr s) + mem (addr e))) x
        ⟨mem, mem (addr e)⟩ h) := moves fun _ => rfl
  exact hcheck.trans (hread.trans (hright.trans (hsum.trans (moves fun _ => rfl))))

lemma leaves (hs : Serves inputs) (v : Vars) (x : Link) (a : Bram 32 32) :
    ∃ x', Leads (clock inside ack) inputs
    (sys .quicksortReturn v x a ⟨f :: fs, args, none, calls⟩)
    (sys (returnTo f.code) v x' a ⟨fs, args, none, calls ++ [Call.ret f.code fs]⟩) := by
  obtain ⟨x', hreturn⟩ : ∃ x', Leads (clock inside ack) inputs
      (sys .sendRequest v { x with opcode := opcodeReturn } a ⟨f :: fs, args, none, calls⟩)
      (sys (returnTo f.code) v x' a ⟨fs, args, none, calls ++ [Call.ret f.code fs]⟩) :=
    return_request hs rfl f fs args calls
  exact ⟨x', .trans (moves fun _ => rfl) hreturn⟩

lemma calls_left (hs : Serves inputs) (v : Vars) (x : Link) (a : Bram 32 32) :
    let callers : List Frame := ⟨f.code, [v.rightPtr, v.endPtr]⟩ :: fs
    ∃ x', Leads (clock inside ack) inputs
      (sys .callQs1 v x a ⟨⟨f.code, [0, 0]⟩ :: fs, args, none, calls⟩)
      (sys .quicksort1 v x' a
        ⟨⟨uQuicksortCallQs6, []⟩ :: callers, v.startPtr :: v.leftPtr :: args, none,
        calls ++ [Call.call uQuicksortCallQs6 callers]⟩) := by
  intro callers
  obtain ⟨x₁, -, hright⟩ : ∃ x₁ : Link, x₁.mblazeRet = ack ∧ Leads (clock inside ack) inputs
      (sys .callQs1 v x a ⟨⟨f.code, [0, 0]⟩ :: fs, args, none, calls⟩)
      (sys .callQs2 v x₁ a ⟨⟨f.code, [v.rightPtr, 0]⟩ :: fs, args, none, calls⟩) :=
    Sends.write (fun _ => rfl) hs rfl
  obtain ⟨x₂, -, hend⟩ : ∃ x₂ : Link, x₂.mblazeRet = ack ∧ Leads (clock inside ack) inputs
      (sys .callQs2 v x₁ a ⟨⟨f.code, [v.rightPtr, 0]⟩ :: fs, args, none, calls⟩)
      (sys .callQs3 v x₂ a ⟨callers, args, none, calls⟩) :=
    Sends.write (fun _ => rfl) hs rfl
  obtain ⟨x₃, -, hlast⟩ : ∃ x₃ : Link, x₃.mblazeRet = ack ∧ Leads (clock inside ack) inputs
      (sys .callQs3 v x₂ a ⟨callers, args, none, calls⟩)
      (sys .callQs4 v x₃ a ⟨callers, v.leftPtr :: args, none, calls⟩) :=
    Sends.push (fun _ => rfl) hs
  obtain ⟨x₄, -, hfirst⟩ : ∃ x₄ : Link, x₄.mblazeRet = ack ∧ Leads (clock inside ack) inputs
      (sys .callQs4 v x₃ a ⟨callers, v.leftPtr :: args, none, calls⟩)
      (sys .callQs5 v x₄ a ⟨callers, v.startPtr :: v.leftPtr :: args, none, calls⟩) :=
    Sends.push (fun _ => rfl) hs
  obtain ⟨x₅, -, hcall⟩ : ∃ x₅ : Link, x₅.mblazeRet = ack ∧ Leads (clock inside ack) inputs
      (sys .callQs5 v x₄ a ⟨callers, v.startPtr :: v.leftPtr :: args, none, calls⟩)
      (sys .quicksort1 v x₅ a
        ⟨⟨uQuicksortCallQs6, []⟩ :: callers, v.startPtr :: v.leftPtr :: args, none,
        calls ++ [Call.call uQuicksortCallQs6 callers]⟩) :=
    Sends.call (fun _ => rfl) hs
  exact ⟨x₅, hright.trans (hend.trans (hlast.trans (hfirst.trans hcall)))⟩

lemma calls_right (hs : Serves inputs) (y z : Word) (v : Vars) (x : Link) (a : Bram 32 32) :
    let callers : List Frame := ⟨f.code, [y, z]⟩ :: fs
    ∃ v' x', Leads (clock inside ack) inputs
      (sys .callQs6 v x a ⟨callers, args, none, calls⟩)
      (sys .quicksort1 v' x' a ⟨⟨uQuicksortReturn, []⟩ :: callers, y :: z :: args, none,
        calls ++ [Call.call uQuicksortReturn callers]⟩) := by
  intro callers
  obtain ⟨x₁, hx₁, hend⟩ : ∃ x₁ : Link, x₁.mblazeRet = z ∧ Leads (clock inside ack) inputs
      (sys .callQs6 v x a ⟨callers, args, none, calls⟩)
      (sys .callQs7 v x₁ a ⟨callers, args, none, calls⟩) :=
    Sends.read (fun _ => rfl) hs rfl
  obtain ⟨x₂, hx₂, hright⟩ : ∃ x₂ : Link, x₂.mblazeRet = y ∧ Leads (clock inside ack) inputs
      (sys .callQs7 v x₁ a ⟨callers, args, none, calls⟩)
      (sys .callQs8 { v with endPtr := x₁.mblazeRet } x₂ a ⟨callers, args, none, calls⟩) :=
    Sends.read (fun _ => rfl) hs rfl
  let v' : Vars := { v with endPtr := x₁.mblazeRet, rightPtr := x₂.mblazeRet }
  obtain ⟨x₃, -, hlast⟩ : ∃ x₃ : Link, x₃.mblazeRet = ack ∧ Leads (clock inside ack) inputs
      (sys .callQs8 { v with endPtr := x₁.mblazeRet } x₂ a ⟨callers, args, none, calls⟩)
      (sys .callQs9 v' x₃ a ⟨callers, x₁.mblazeRet :: args, none, calls⟩) :=
    Sends.push (fun _ => rfl) hs
  obtain ⟨x₄, -, hfirst⟩ : ∃ x₄ : Link, x₄.mblazeRet = ack ∧ Leads (clock inside ack) inputs
      (sys .callQs9 v' x₃ a ⟨callers, x₁.mblazeRet :: args, none, calls⟩)
      (sys .callQsA v' x₄ a ⟨callers, x₂.mblazeRet :: x₁.mblazeRet :: args, none, calls⟩) :=
    Sends.push (fun _ => rfl) hs
  obtain ⟨x₅, -, hcall⟩ : ∃ x₅ : Link, x₅.mblazeRet = ack ∧ Leads (clock inside ack) inputs
      (sys .callQsA v' x₄ a ⟨callers, x₂.mblazeRet :: x₁.mblazeRet :: args, none, calls⟩)
      (sys .quicksort1 v' x₅ a ⟨⟨uQuicksortReturn, []⟩ :: callers,
        x₂.mblazeRet :: x₁.mblazeRet :: args, none,
        calls ++ [Call.call uQuicksortReturn callers]⟩) :=
    Sends.call (fun _ => rfl) hs
  rw [hx₁, hx₂] at *
  exact ⟨v', x₅, hend.trans (hright.trans (hlast.trans (hfirst.trans hcall)))⟩

lemma parts_range {mem : Word → Word} (hs : Serves inputs) (he : e < 2 ^ 13) (hse : s < e)
    (hsum : NoOverflow (words s e) mem) (hinside : ∀ i, s ≤ i → i ≤ e → inside (addr i) = true)
    (v : Vars) (x : Link) (d : Word) :
    ∃ m mem' left right pivot x' d', Parted mem s e mem' m ∧ Leads (clock inside ack) inputs
      (sys .quicksort1 v x ⟨mem, d⟩ ⟨f :: fs, addr s :: addr e :: args, none, calls⟩)
      (sys .callQs1 (ptrs s e m (m + 1) left right pivot) x' ⟨mem', d'⟩
        ⟨⟨f.code, [0, 0]⟩ :: fs, args, none, calls⟩) := by
  obtain ⟨_, _, _, x', henter⟩ := enters inside ack f fs args calls hs s e v x ⟨mem, d⟩
  have hne : addr s ≠ addr e := fun heq => absurd (addr_inj (by omega) he heq) (by omega)
  have hmid := middle_halved (mem (addr s)) (mem (addr e))
    (hsum _ (addr_mem_words (le_refl s) hse.le) _ (addr_mem_words hse.le (le_refl e)) hne)
  let h : Host := ⟨⟨f.code, [0, 0]⟩ :: fs, args, none, calls⟩
  obtain ⟨l, r, mem', left, d', hmet, hpart, hloop⟩ :=
    parting_loop inputs inside ack x' h hinside he
    hmid (e - s + 1) (d := mem (addr e)) (Nat.lt_succ_self _) hse (.start mem s e _)
  obtain ⟨m, hparted, hchoose⟩ :=
    choose_parts inputs inside ack x' h (d := d') left hpart he hse hmid hmet
  exact ⟨m, mem', left, _, _, x', d', hparted, henter.trans
    ((reads_ends inside ack he hse (hinside s (le_refl s) hse.le)
      (hinside e hse.le (le_refl e))).trans
      (hloop.trans hchoose))⟩

/-- A call sorts its range, and leaves the frames of its caller as they were. -/
lemma sorts_range (hs : Serves inputs) (inside : Word → Bool) (ack : Word) (n : ℕ) :
    ∀ {s e : ℕ} {mem : Word → Word}, e - s < n → s ≤ e → e < 2 ^ 13 → NoOverflow (words s e) mem →
      (∀ i, s ≤ i → i ≤ e → inside (addr i) = true) →
      ∀ (v : Vars) (x : Link) (d : Word) (f : Frame) (fs : List Frame) (args : List Word)
        (calls : List Call), ∃ mem' l v' x' d', Rearranges (words s e) mem mem' ∧
          Ascends BitVec.toNat (Set.Icc s e) (mem' ∘ addr) ∧ Matched l ∧
          Leads (clock inside ack) inputs
            (sys .quicksort1 v x ⟨mem, d⟩ ⟨f :: fs, addr s :: addr e :: args, none, calls⟩)
            (sys (returnTo f.code) v' x' ⟨mem', d'⟩
              ⟨fs, args, none, calls ++ l ++ [Call.ret f.code fs]⟩) := by
  induction n with
  | zero => exact fun hn => absurd hn (Nat.not_lt_zero _)
  | succ n ih =>
    intro s e mem hn hle he hsum hinside v x d f fs args calls
    obtain hse | rfl : s < e ∨ s = e := by omega
    · obtain ⟨m, mem₁, left, right, pivot, x₁, d₁, hparted, hparts⟩ :=
        parts_range inside ack f fs args calls hs he hse hsum hinside v x d
      have hms := hparted.start_le
      have hme := hparted.lt_end
      let callers : List Frame := ⟨f.code, [addr (m + 1), addr e]⟩ :: fs
      obtain ⟨x₂, hleft⟩ := calls_left inside ack f fs args calls hs
        (ptrs s e m (m + 1) left right pivot) x₁ ⟨mem₁, d₁⟩
      have hsum₁ := hsum.rearranged hparted.perm
      obtain ⟨mem₂, l₂, v₂, x₃, d₂, hperm₂, hasc₂, hmatched₂, hsorts₂⟩ :=
        ih (by omega) hms (by omega)
        (hsum₁.mono (words_mono (le_refl s) hme.le)) (fun i hi hi' => hinside i hi (by omega))
        (ptrs s e m (m + 1) left right pivot) x₂ d₁ ⟨uQuicksortCallQs6, []⟩ callers args
        (calls ++ [Call.call uQuicksortCallQs6 callers])
      have hperm₂' := hperm₂.mono (words_mono (le_refl s) hme.le)
      have hsum₂ := hsum₁.rearranged hperm₂'
      obtain ⟨v₃, x₄, hright⟩ := calls_right inside ack f fs args _ hs (addr (m + 1)) (addr e) v₂ x₃
        ⟨mem₂, d₂⟩
      obtain ⟨mem₃, l₃, v₄, x₅, d₃, hperm₃, hasc₃, hmatched₃, hsorts₃⟩ := ih (by omega) hme he
        (hsum₂.mono (words_mono (by omega) (le_refl e))) (fun i hi hi' => hinside i (by omega) hi')
        v₃ x₄ d₂ ⟨uQuicksortReturn, []⟩ callers args
        (calls ++ [Call.call uQuicksortCallQs6 callers] ++ l₂ ++
          [Call.ret uQuicksortCallQs6 callers] ++
          [Call.call uQuicksortReturn callers])
      obtain ⟨x₆, hleaves⟩ := leaves inside ack ⟨f.code, [addr (m + 1), addr e]⟩ fs args _ hs v₄ x₅
        ⟨mem₃, d₃⟩
      refine ⟨mem₃, Call.call uQuicksortCallQs6 callers :: l₂ ++
        Call.ret uQuicksortCallQs6 callers ::
          (Call.call uQuicksortReturn callers :: l₃ ++ Call.ret uQuicksortReturn callers :: []),
            v₄, x₆, d₃,
        ?_, ascends_of_parted he hparted hperm₂ hperm₃ hasc₂ hasc₃,
        .call hmatched₂ (.call hmatched₃ .nil), ?_⟩
      · exact hparted.perm.trans (hperm₂'.trans (hperm₃.mono (words_mono (by omega) (le_refl e))))
      · have hrun :=
          hparts.trans (hleft.trans (hsorts₂.trans (hright.trans (hsorts₃.trans hleaves))))
        simpa [List.append_assoc] using hrun
    · obtain ⟨left, right, pivot, x₁, henter⟩ :=
        enters inside ack f fs args calls hs s s v x ⟨mem, d⟩
      let v₁ := ptrs s s s s left right pivot
      obtain ⟨x₂, hleaves⟩ := leaves inside ack ⟨f.code, [0, 0]⟩ fs args calls hs v₁ x₁ ⟨mem, d⟩
      refine ⟨mem, [], v₁, x₂, d, .refl _ _, fun i hi j hj hij => ?_, .nil, ?_⟩
      · have hsame : i = j := le_antisymm hij (hj.2.trans hi.1)
        rw [hsame]
      · rw [List.append_nil]
        exact henter.trans (.trans (moves fun _ => if_pos (BitVec.le_refl _)) hleaves)

lemma begins (hs : Serves inputs) (w : Word) (v : Vars) (x : Link) (a : Bram 32 32) :
    let callers : List Frame := ⟨f.code, [startField w, endField w, startField w, endField w]⟩ :: fs
    ∃ v' x', Leads (clock inside ack) inputs
      ⟨⟨.idle, v, x⟩, a, [w], ⟨f :: fs, args, none, calls⟩, []⟩
      (sys .quicksort1 v' x' a ⟨⟨uExitThread1, []⟩ :: callers,
        startField w :: endField w :: args, none, calls ++ [Call.call uExitThread1 callers]⟩) := by
  intro callers
  have hfetch : Leads (clock inside ack) inputs
      ⟨⟨.idle, v, x⟩, a, [w], ⟨f :: fs, args, none, calls⟩, []⟩
      (sys .decode v { x with data1 := w } a ⟨f :: fs, args, none, calls⟩) := by
    refine hs.leads_ready (fun i hi => ?_) fun i hi => ?_
    · simp [clock, comb, wires, hi]
    · simp [clock, comb, wires, sys, hi]
  let x₀ : Link := { x with data1 := w, arg2 := endField w, arg1 := startField w }
  let v₀ : Vars :=
    ⟨startField w, endField w, startField w, endField w, v.left, v.right, v.pivot⟩
  obtain ⟨x₁, -, hdeclare⟩ : ∃ x₁ : Link, x₁.mblazeRet = ack ∧ Leads (clock inside ack) inputs
      (sys .readSortdata4 v x₀ a ⟨f :: fs, args, none, calls⟩)
      (sys .readSortdata5 v₀ x₁ a ⟨⟨f.code, [0, 0, 0, 0]⟩ :: fs, args, none, calls⟩) :=
    Sends.declare (fun _ => rfl) hs rfl
  obtain ⟨x₂, -, hstart⟩ : ∃ x₂ : Link, x₂.mblazeRet = ack ∧ Leads (clock inside ack) inputs
      (sys .readSortdata5 v₀ x₁ a ⟨⟨f.code, [0, 0, 0, 0]⟩ :: fs, args, none, calls⟩)
      (sys .readSortdata6 v₀ x₂ a ⟨⟨f.code, [startField w, 0, 0, 0]⟩ :: fs, args, none, calls⟩) :=
    Sends.write (fun _ => rfl) hs rfl
  obtain ⟨x₃, -, hend⟩ : ∃ x₃ : Link, x₃.mblazeRet = ack ∧ Leads (clock inside ack) inputs
      (sys .readSortdata6 v₀ x₂ a ⟨⟨f.code, [startField w, 0, 0, 0]⟩ :: fs, args, none, calls⟩)
      (sys .readSortdata7 v₀ x₃ a
        ⟨⟨f.code, [startField w, endField w, 0, 0]⟩ :: fs, args, none, calls⟩) :=
    Sends.write (fun _ => rfl) hs rfl
  obtain ⟨x₄, -, hleft⟩ : ∃ x₄ : Link, x₄.mblazeRet = ack ∧ Leads (clock inside ack) inputs
      (sys .readSortdata7 v₀ x₃ a
        ⟨⟨f.code, [startField w, endField w, 0, 0]⟩ :: fs, args, none, calls⟩)
      (sys .readSortdata8 v₀ x₄ a
        ⟨⟨f.code, [startField w, endField w, startField w, 0]⟩ :: fs, args, none, calls⟩) :=
    Sends.write (fun _ => rfl) hs rfl
  obtain ⟨x₅, -, hright⟩ : ∃ x₅ : Link, x₅.mblazeRet = ack ∧ Leads (clock inside ack) inputs
      (sys .readSortdata8 v₀ x₄ a
        ⟨⟨f.code, [startField w, endField w, startField w, 0]⟩ :: fs, args, none, calls⟩)
      (sys .callQsort1 v₀ x₅ a ⟨callers, args, none, calls⟩) :=
    Sends.write (fun _ => rfl) hs rfl
  obtain ⟨x₆, -, hlast⟩ : ∃ x₆ : Link, x₆.mblazeRet = ack ∧ Leads (clock inside ack) inputs
      (sys .callQsort1 v₀ x₅ a ⟨callers, args, none, calls⟩)
      (sys .callQsort2 v₀ x₆ a ⟨callers, endField w :: args, none, calls⟩) :=
    Sends.push (fun _ => rfl) hs
  obtain ⟨x₇, -, hfirst⟩ : ∃ x₇ : Link, x₇.mblazeRet = ack ∧ Leads (clock inside ack) inputs
      (sys .callQsort2 v₀ x₆ a ⟨callers, endField w :: args, none, calls⟩)
      (sys .callQsort3 v₀ x₇ a ⟨callers, startField w :: endField w :: args, none, calls⟩) :=
    Sends.push (fun _ => rfl) hs
  obtain ⟨x₈, -, hcall⟩ : ∃ x₈ : Link, x₈.mblazeRet = ack ∧ Leads (clock inside ack) inputs
      (sys .callQsort3 v₀ x₇ a ⟨callers, startField w :: endField w :: args, none, calls⟩)
      (sys .quicksort1 v₀ x₈ a
        ⟨⟨uExitThread1, []⟩ :: callers, startField w :: endField w :: args, none,
        calls ++ [Call.call uExitThread1 callers]⟩) :=
    Sends.call (fun _ => rfl) hs
  have hsaved := hdeclare.trans (hstart.trans (hend.trans (hleft.trans hright)))
  exact ⟨v₀, x₈, hfetch.trans (.trans (moves fun _ => rfl)
    (hsaved.trans (hlast.trans (hfirst.trans hcall))))⟩

lemma finishes (hs : Serves inputs) (v : Vars) (x : Link) (a : Bram 32 32) :
    ∃ x', Leads (clock inside ack) inputs (sys .exitThread1 v x a ⟨fs, args, none, calls⟩)
      (sys .idle v x' a ⟨fs, args, none, calls ++ [Call.done]⟩) := by
  obtain ⟨x', -, hdone⟩ : ∃ x' : Link, x'.mblazeRet = ack ∧ Leads (clock inside ack) inputs
      (sys .exitThread1 v x a ⟨fs, args, none, calls⟩)
      (sys .idle v x' a ⟨fs, args, none, calls ++ [Call.done]⟩) :=
    Sends.finish (fun _ => rfl) hs
  exact ⟨x', hdone⟩

end Frames

def InRange (w a : Word) : Prop := startField w ≤ a ∧ a ≤ endField w ∧ a.toNat % 4 = 0

instance (w : Word) : DecidablePred (InRange w) :=
  fun _ => inferInstanceAs (Decidable (_ ∧ _ ∧ _))

section Sorts

variable {inputs : ℕ → ChanInput} {w : Word}

lemma setOf_inRange (hstart : (startField w).toNat % 4 = 0) (hend : (endField w).toNat % 4 = 0) :
    {a | InRange w a} = words ((startField w).toNat / 4) ((endField w).toNat / 4) := by
  have hs := startField_lt w
  have he := endField_lt w
  ext a
  constructor
  · rintro ⟨hle, hle', halign⟩
    refine ⟨a.toNat / 4, ⟨?_, ?_⟩, ?_⟩
    · bv_omega
    · bv_omega
    · apply BitVec.eq_of_toNat_eq
      rw [toNat_addr (by bv_omega)]
      omega
  · rintro ⟨i, ⟨hi, hi'⟩, rfl⟩
    have hnat : (addr i).toNat = 4 * i := toNat_addr (by omega)
    refine ⟨?_, ?_, ?_⟩
    · rw [BitVec.le_def]
      omega
    · rw [BitVec.le_def]
      omega
    · omega

lemma addr_div (h : w.toNat % 4 = 0) (hlt : w.toNat < 2 ^ 15) : addr (w.toNat / 4) = w := by
  apply BitVec.eq_of_toNat_eq
  rw [toNat_addr (by omega)]
  omega

/-- The core sorts the words of its command with unsigned comparisons, reads and writes no other
word, returns from every call to the frames that it was made with, says that it is done and is idle.
-/
theorem quicksort_core_sorts (hs : Serves inputs) (w ack : Word)
    (hstart : (startField w).toNat % 4 = 0) (hend : (endField w).toNat % 4 = 0)
    (hle : startField w ≤ endField w) (mem : Word → Word)
    (hsum : NoOverflow {a | InRange w a} mem) (v : Vars) (x : Link) (d : Word) (f : Frame)
    (fs : List Frame) (args : List Word) (calls : List Call) (k : ℕ) :
    ∃ n v' x' mem' d' l,
      clocked (clock (fun a => decide (InRange w a)) ack) inputs k n
          ⟨⟨.idle, v, x⟩, ⟨mem, d⟩, [w], ⟨f :: fs, args, none, calls⟩, []⟩ =
        ⟨⟨.idle, v', x'⟩, ⟨mem', d'⟩, [],
          ⟨⟨f.code, [startField w, endField w, startField w, endField w]⟩ :: fs, args, none,
            calls ++ l ++ [Call.done]⟩, []⟩ ∧
      Matched l ∧ Rearranges {a | InRange w a} mem mem' ∧
      Ascends BitVec.toNat {a | InRange w a} mem' := by
  let callers : List Frame :=
    ⟨f.code, [startField w, endField w, startField w, endField w]⟩ :: fs
  let inside : Word → Bool := fun a => decide (InRange w a)
  have hs' := startField_lt w
  have he' := endField_lt w
  have hrange := setOf_inRange hstart hend
  have hinside : ∀ i, (startField w).toNat / 4 ≤ i → i ≤ (endField w).toNat / 4 →
      inside (addr i) = true := by
    intro i hi hi'
    have hmem : addr i ∈ {a | InRange w a} := hrange ▸ addr_mem_words hi hi'
    exact decide_eq_true hmem
  have hle' : (startField w).toNat / 4 ≤ (endField w).toNat / 4 :=
    Nat.div_le_div_right (BitVec.le_def.mp hle)
  obtain ⟨v₁, x₁, hbegin⟩ := begins inside ack f fs args calls hs w v x ⟨mem, d⟩
  obtain ⟨mem', l, v₂, x₂, d', hperm, hasc, hmatched, hsorts⟩ := sorts_range hs inside ack
    ((endField w).toNat / 4 - (startField w).toNat / 4 + 1) (Nat.lt_succ_self _) hle' (by omega)
    (hrange ▸ hsum) hinside v₁ x₁ d ⟨uExitThread1, []⟩ callers args
    (calls ++ [Call.call uExitThread1 callers])
  rw [addr_div hstart hs', addr_div hend he'] at hsorts
  obtain ⟨x₃, hfinish⟩ := finishes inside ack callers args
    (calls ++ [Call.call uExitThread1 callers] ++ l ++ [Call.ret uExitThread1 callers]) hs
      v₂ x₂ ⟨mem', d'⟩
  obtain ⟨n, hn⟩ := (hbegin.trans (hsorts.trans hfinish)) k
  have hall : Matched (Call.call uExitThread1 callers :: l ++ [Call.ret uExitThread1 callers]) :=
    .call hmatched .nil
  refine ⟨n, v₂, x₃, mem', d', _, ?_, hall, ?_, ?_⟩
  · have hcalls : calls ++ [Call.call uExitThread1 callers] ++ l ++
          [Call.ret uExitThread1 callers] ++ [Call.done] =
        calls ++ (Call.call uExitThread1 callers :: l ++ [Call.ret uExitThread1 callers]) ++
          [Call.done] := by
      simp
    rw [hcalls] at hn
    exact hn
  · rw [hrange]
    exact hperm
  · rw [hrange]
    rintro _ ⟨i, hi, rfl⟩ _ ⟨j, hj, rfl⟩ hij
    have hij' : i ≤ j := by
      rw [BitVec.le_def, toNat_addr (by have := hi.2; omega),
        toNat_addr (by have := hj.2; omega)] at hij
      omega
    exact hasc i hi j hj hij'

/-- The command for the words at 0, 4 and 8. -/
def threeWords : Word := 0x40000

theorem quicksort_core_sorts_three_words : Serves slowly ∧
    (∀ a, InRange threeWords a → a = 0 ∨ a = 4 ∨ a = 8) ∧
    ∃ n s, clocked (clock (fun a => decide (InRange threeWords a)) 0) slowly 0 n
        ⟨⟨.idle, ⟨0, 0, 0, 0, 0, 0, 0⟩, ⟨0, 0, 0, 0, 0, 0, .reset, 0⟩⟩, ⟨fun a => 9 - a, 0⟩,
          [threeWords], ⟨[⟨0, []⟩], [], none, []⟩, []⟩ = s ∧
      s.core.currentState = .idle ∧ s.strays = [] ∧
      (s.array.data 0).toNat ≤ (s.array.data 4).toNat ∧
      (s.array.data 4).toNat ≤ (s.array.data 8).toNat := by
  have hrange : ∀ a, InRange threeWords a → a = 0 ∨ a = 4 ∨ a = 8 := by
    rintro a ⟨-, hle, halign⟩
    have hend : endField threeWords = 8 := by decide
    rw [hend] at hle
    bv_omega
  have hsum : NoOverflow {a | InRange threeWords a} fun a => 9 - a := by
    intro i hi j hj _
    obtain rfl | rfl | rfl := hrange i hi <;> obtain rfl | rfl | rfl := hrange j hj <;> decide
  obtain ⟨n, v', x', mem', d', l, hn, -, -, hasc⟩ := quicksort_core_sorts serves_slowly threeWords 0
    (by decide) (by decide) (by decide) (fun a => 9 - a) hsum ⟨0, 0, 0, 0, 0, 0, 0⟩
    ⟨0, 0, 0, 0, 0, 0, .reset, 0⟩ 0 ⟨0, []⟩ [] [] [] 0
  exact ⟨serves_slowly, hrange, n, _, hn, rfl, rfl,
    hasc 0 (by decide) 4 (by decide) (by decide), hasc 4 (by decide) 8 (by decide) (by decide)⟩

end Sorts

end Hthreads.HwAcc.QuickSort
