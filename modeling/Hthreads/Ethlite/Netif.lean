import Hthreads.Ethlite.Driver

/-! The network interface between the packet buffers of the stack and the driver (`netif.c`). -/

namespace Hthreads.Ethlite

open Library

structure Pbuf where
  payload : List Byte

def Pbuf.len (q : Pbuf) : ℕ := q.payload.length

def contents (chain : List Pbuf) : List Byte := chain.flatMap Pbuf.payload

def mtu : ℕ := 1500

/-- The size both staging buffers are allocated with. -/
def stagingSize : ℕ := 1500

/-- The aligned buffer within an allocation of `size + 4` bytes at `alloc`, and the offset kept
in the byte before it. -/
def netifMalloc (alloc : ℕ) : ℕ × Byte :=
  (alloc + 4 - alloc % 4, BitVec.ofNat 8 (4 - alloc % 4))

def netifFree (buffer : ℕ) (off : Byte) : ℕ := buffer - off.toNat

/-- The buffer is aligned, it and its offset byte lie in the allocation, and `netif_free` finds the
allocation again. -/
lemma netifMalloc_spec (alloc i : ℕ) (h : i < stagingSize) :
    (netifMalloc alloc).1 % 4 = 0 ∧ alloc ≤ (netifMalloc alloc).1 - 1 ∧
      (netifMalloc alloc).1 + i < alloc + (stagingSize + 4) ∧
      netifFree (netifMalloc alloc).1 (netifMalloc alloc).2 = alloc := by
  have hoff : (4 - alloc % 4) % 2 ^ 8 = 4 - alloc % 4 := Nat.mod_eq_of_lt (by omega)
  simp only [netifFree, netifMalloc, BitVec.toNat_ofNat, hoff]
  omega

-- stores of single bytes, into a buffer and into a payload
def storeBytes (stores : List (ℕ × Byte)) (m : Bytes) : Bytes :=
  stores.foldl (fun m s => Function.update m s.1 s.2) m

def storePayload (stores : List (ℕ × Byte)) (payload : List Byte) : List Byte :=
  stores.foldl (fun l s => l.set s.1 s.2) payload

def memcpy (dst : ℕ) (src : List Byte) : List (ℕ × Byte) := (src.zipIdx dst).map Prod.swap

/-- What a call of `ethlite_netif_lloutput` leaves behind, with the bytes it stored in the
staging buffer. -/
structure Output where
  eth : Eth
  staging : Bytes
  stores : List (ℕ × Byte)

def gather : List Pbuf → ℕ → ℕ → List (ℕ × Byte) × ℕ
  | [], _, size => ([], size)
  | q :: next, fbp, size =>
    let (stores, total) := gather next (fbp + q.len) (size + q.len)
    (memcpy fbp q.payload ++ stores, total)

def lloutput (eth : Eth) (staging : Bytes) (p : List Pbuf) : Option Output :=
  (txwait eth).map fun buffer =>
    let (stores, size) := gather p 0 0
    let staging := storeBytes stores staging
    let eth := sendfill eth buffer (fun i => staging.load32 (4 * i)) size
    let eth := sendsignal eth buffer (BitVec.ofNat 16 size)
    ⟨eth, staging, stores⟩

/-- A chain as `pbuf_alloc` returns it: it has a first buffer. -/
structure Chain where
  first : Pbuf
  next : List Pbuf

def Chain.pbufs (p : Chain) : List Pbuf := p.first :: p.next

/-- What a call of `ethlite_netif_llinput` leaves behind, with the words it stored in the
staging buffer and the bytes it stored at the first payload. -/
structure Input where
  eth : Eth
  p : Option Chain
  words : List (ℕ × Word)
  stores : List (ℕ × Byte)

def llinput (eth : Eth) (staging : Words) (pbufAlloc : ℕ → Option Chain) : Option Input :=
  (rxwait eth).map fun buffer =>
    let len := recvsize eth buffer
    match pbufAlloc len with
    | some p =>
      let words := recvfill eth buffer len
      let rb := (Words.stored words staging).byte
      let stores := (List.range len).map fun i => (i, rb i)
      let eth := recvack eth buffer
      ⟨eth, some { p with first := ⟨storePayload stores p.first.payload⟩ }, words, stores⟩
    | none => ⟨recvack eth buffer, none, [], []⟩

structure Output.Safe (buffer : Bool) (p : List Pbuf) (out : Output) : Prop where
  inside : ∀ s ∈ out.stores, s.1 < stagingSize
  length : (out.eth.txlength buffer).toNat = (contents p).length
  bytes : ∀ k < (contents p).length,
    (contents p)[k]? = some ((out.eth.txbuffer buffer).byte k)
  signalled : statusSet (out.eth.txcontrol buffer) = true

/-- The first `frame` bytes of the receive buffer reach the stack, in the chain `alloc`. -/
structure Input.Safe (eth : Eth) (buffer : Bool) (frame : ℕ) (alloc : Option Chain)
    (out : Input) : Prop where
  inside : ∀ w ∈ out.words, 4 * w.1 + 4 ≤ stagingSize
  payload : ∀ p ∈ alloc, ∀ s ∈ out.stores, s.1 < p.first.len
  whole : ∀ p ∈ out.p, ∀ k < frame,
    (contents p.pbufs)[k]? = some ((eth.rxbuffer buffer).byte k)
  released : out.eth.acks = eth.acks ++ [buffer]

inductive Operation
  | output (eth : Eth) (staging : Bytes) (p : List Pbuf)
  | input (eth : Eth) (staging : Words) (frame : ℕ) (pbufAlloc : ℕ → Option Chain)

namespace Operation

-- what the stack, the controller and `pbuf_alloc` promise: a free or a full buffer to work on,
-- frames no longer than the medium allows and chains of the requested length
def Allowed : Operation → Prop
  | output eth _ p => (txwait eth).isSome = true ∧ (contents p).length ≤ mtu + 14
  | input eth _ frame pbufAlloc => (rxwait eth).isSome = true ∧ frame ≤ 1514 ∧
      ∀ n p, pbufAlloc n = some p → (contents p.pbufs).length = n

def Carries : Operation → Prop
  | output eth staging p => ∃ buffer ∈ txwait eth, ∃ out ∈ lloutput eth staging p,
      out.Safe buffer p
  | input eth staging frame pbufAlloc => ∃ buffer ∈ rxwait eth,
      ∃ out ∈ llinput eth staging pbufAlloc,
        out.Safe eth buffer frame (pbufAlloc (recvsize eth buffer))

def Fits : Operation → Prop
  | output _ _ p => (contents p).length ≤ stagingSize
  | input eth _ frame pbufAlloc => ∀ buffer ∈ rxwait eth,
      ∀ p ∈ pbufAlloc (recvsize eth buffer),
        recvsize eth buffer ≤ p.first.len ∧ frame ≤ recvsize eth buffer

end Operation

section Stores

variable {l : List Byte} {m : Bytes} {dst i k n : ℕ}

lemma memcpy_cons (x : Byte) : memcpy dst (x :: l) = (dst, x) :: memcpy (dst + 1) l := rfl

lemma memcpy_append (l' : List Byte) :
    memcpy dst (l ++ l') = memcpy dst l ++ memcpy (dst + l.length) l' := by
  rw [memcpy, List.zipIdx_append, List.map_append]
  rfl

lemma memcpy_inside_iff : (∀ s ∈ memcpy 0 l, s.1 < n) ↔ l.length ≤ n := by
  constructor
  · intro h
    by_contra hlong
    have hn : n < l.length := Nat.lt_of_not_le hlong
    have hmem : (n, l[n]) ∈ memcpy 0 l := by
      apply List.mem_map.mpr
      refine ⟨(l[n], n), ?_, rfl⟩
      rw [List.mem_zipIdx_iff_getElem?, List.getElem?_eq_getElem hn]
    exact Nat.lt_irrefl n (h _ hmem)
  · intro h s hs
    obtain ⟨⟨x, j⟩, hx, rfl⟩ := List.mem_map.mp hs
    rw [List.mem_zipIdx_iff_getElem?] at hx
    exact lt_of_lt_of_le (List.getElem?_eq_some_iff.mp hx).1 h

lemma storeBytes_memcpy_of_lt (h : i < dst) : storeBytes (memcpy dst l) m i = m i := by
  induction l generalizing dst m with
  | nil => rfl
  | cons x l ih =>
    rw [memcpy_cons, storeBytes, List.foldl_cons]
    exact (ih (Nat.lt_succ_of_lt h)).trans (Function.update_of_ne (Nat.ne_of_lt h) _ _)

lemma storeBytes_memcpy (h : k < l.length) :
    l[k]? = some (storeBytes (memcpy dst l) m (dst + k)) := by
  induction l generalizing dst m k with
  | nil => exact absurd h (Nat.not_lt_zero k)
  | cons x l ih =>
    rw [memcpy_cons, storeBytes, List.foldl_cons]
    cases k with
    | zero =>
      have hkeep := storeBytes_memcpy_of_lt (l := l) (m := Function.update m dst x)
        (Nat.lt_succ_self dst)
      rw [Function.update_self] at hkeep
      exact congrArg some hkeep.symm
    | succ k =>
      have hk : l[k]? =
        some (storeBytes (memcpy (dst + 1) l) (Function.update m dst x) (dst + 1 + k)) :=
        ih (Nat.lt_of_succ_lt_succ h)
      rw [Nat.add_right_comm, Nat.add_assoc] at hk
      exact hk

lemma length_storePayload (stores : List (ℕ × Byte)) :
    (storePayload stores l).length = l.length := by
  induction stores generalizing l with
  | nil => rfl
  | cons s stores ih =>
    rw [storePayload, List.foldl_cons]
    exact ih.trans List.length_set

lemma getElem?_storePayload (f : ℕ → Byte) (n k : ℕ) :
    (storePayload ((List.range n).map fun i => (i, f i)) l)[k]? =
      if k < n then l[k]?.map fun _ => f k else l[k]? := by
  induction n with
  | zero => rfl
  | succ n ih =>
    rw [List.range_succ, List.map_append, storePayload, List.foldl_append]
    simp only [List.map_cons, List.map_nil, List.foldl_cons, List.foldl_nil]
    rw [List.getElem?_set', ← storePayload]
    by_cases hn : n = k
    · subst hn
      rw [if_pos rfl, if_pos (Nat.lt_succ_self n), ih, if_neg (Nat.lt_irrefl n)]
      rfl
    · rw [if_neg hn, ih]
      have hlt : k < n + 1 ↔ k < n := by omega
      simp only [hlt]

end Stores

lemma gather_eq (p : List Pbuf) (fbp size : ℕ) :
    gather p fbp size = (memcpy fbp (contents p), size + (contents p).length) := by
  induction p generalizing fbp size with
  | nil => rfl
  | cons q next ih =>
    have hcons : contents (q :: next) = q.payload ++ contents next := List.flatMap_cons
    rw [gather, ih, hcons, memcpy_append, List.length_append, ← Nat.add_assoc]
    rfl

section Calls

variable {eth : Eth} {buffer : Bool} {m : Bytes} {staging : Words} {p : List Pbuf} {frame : ℕ}
  {pbufAlloc : ℕ → Option Chain}

lemma sendfill_byte {len k : ℕ} (hk : k < len) :
    ((sendfill eth buffer (fun i => m.load32 (4 * i)) len).txbuffer buffer).byte k = m k := by
  have hword : k / 4 < (len + 3) / 4 := by omega
  simp only [sendfill, Function.update_self, stored_fill, wordLength_eq]
  rw [Words.byte_congr (Words.overwrite_of_lt hword)]
  exact (Words.byte_of_load32 (a := 0) (by rw [Nat.zero_add])).trans (by rw [Nat.zero_add])

lemma lloutput_eq (h : txwait eth = some buffer) : lloutput eth m p =
    some ⟨sendsignal (sendfill eth buffer
        (fun i => (storeBytes (memcpy 0 (contents p)) m).load32 (4 * i)) (contents p).length)
      buffer (BitVec.ofNat 16 (contents p).length),
      storeBytes (memcpy 0 (contents p)) m, memcpy 0 (contents p)⟩ := by
  rw [lloutput, h, Option.map_some, gather_eq, Nat.zero_add]

lemma statusSet_signalled (intr : Word) : statusSet (intr ||| controlStatus) = true := by
  rw [statusSet, bne_iff_ne]
  intro hzero
  have hbit := congrArg (fun w : Word => w.getLsbD 0) hzero
  simp [controlStatus] at hbit

lemma output_carries_iff (h : (Operation.output eth m p).Allowed) :
    (Operation.output eth m p).Carries ↔ (Operation.output eth m p).Fits := by
  obtain ⟨hwait, hlen⟩ := h
  obtain ⟨buffer, hbuffer⟩ := Option.isSome_iff_exists.mp hwait
  constructor
  · rintro ⟨b, -, out, hout, hsafe⟩
    rw [lloutput_eq hbuffer, Option.mem_some_iff] at hout
    subst hout
    exact memcpy_inside_iff.mp hsafe.inside
  · intro hfits
    refine ⟨buffer, hbuffer, _, lloutput_eq hbuffer, ?_⟩
    constructor
    · exact memcpy_inside_iff.mpr hfits
    · have hsmall : (contents p).length < 2 ^ 16 := by
        rw [mtu] at hlen
        omega
      simp only [sendsignal, Function.update_self]
      rw [BitVec.toNat_setWidth, BitVec.toNat_ofNat, Nat.mod_eq_of_lt hsmall,
        Nat.mod_eq_of_lt (by omega)]
    · intro k hk
      have hbyte : (contents p)[k]? = some (storeBytes (memcpy 0 (contents p)) m (0 + k)) :=
        storeBytes_memcpy hk
      rw [Nat.zero_add] at hbyte
      rw [hbyte]
      exact congrArg some (sendfill_byte hk).symm
    · simp only [sendsignal, Function.update_self]
      exact statusSet_signalled _

lemma recvfill_byte {len k : ℕ} (hk : k < len) :
    (Words.stored (recvfill eth buffer len) staging).byte k = (eth.rxbuffer buffer).byte k := by
  have hword : k / 4 < (len + 3) / 4 := by omega
  rw [recvfill, stored_fill, wordLength_eq]
  exact Words.byte_congr (Words.overwrite_of_lt hword)

lemma recvfill_inside {len : ℕ} (hlen : len ≤ 1500) :
    ∀ w ∈ recvfill eth buffer len, 4 * w.1 + 4 ≤ stagingSize := by
  intro w hw
  obtain ⟨i, hi, rfl⟩ := List.mem_map.mp hw
  rw [List.mem_range, wordLength_eq] at hi
  rw [stagingSize]
  omega

def copied (eth : Eth) (buffer : Bool) (staging : Words) : List (ℕ × Byte) :=
  (List.range (recvsize eth buffer)).map fun i =>
    (i, (Words.stored (recvfill eth buffer (recvsize eth buffer)) staging).byte i)

lemma llinput_of_none (h : rxwait eth = some buffer)
    (hp : pbufAlloc (recvsize eth buffer) = none) :
    llinput eth staging pbufAlloc = some ⟨recvack eth buffer, none, [], []⟩ := by
  simp only [llinput, h, Option.map_some, hp]

lemma llinput_of_some {p : Chain} (h : rxwait eth = some buffer)
    (hp : pbufAlloc (recvsize eth buffer) = some p) :
    llinput eth staging pbufAlloc = some ⟨recvack eth buffer,
      some { p with first := ⟨storePayload (copied eth buffer staging) p.first.payload⟩ },
      recvfill eth buffer (recvsize eth buffer), copied eth buffer staging⟩ := by
  simp only [llinput, h, Option.map_some, hp]
  rfl

lemma contents_storePayload {q : Chain} {stores : List (ℕ × Byte)} {k : ℕ}
    (h : k < q.first.len) :
    (contents (Chain.pbufs { q with first := ⟨storePayload stores q.first.payload⟩ }))[k]? =
      (storePayload stores q.first.payload)[k]? := by
  rw [Chain.pbufs, contents, List.flatMap_cons]
  apply List.getElem?_append_left
  rw [length_storePayload]
  exact h

lemma contents_length_storePayload (q : Chain) (stores : List (ℕ × Byte)) :
    (contents (Chain.pbufs { q with first := ⟨storePayload stores q.first.payload⟩ })).length =
      (contents q.pbufs).length := by
  simp only [Chain.pbufs, contents, List.flatMap_cons, List.length_append, length_storePayload]

lemma copied_inside_iff {n : ℕ} :
    (∀ s ∈ copied eth buffer staging, s.1 < n) ↔ recvsize eth buffer ≤ n := by
  constructor
  · intro h
    by_contra hlong
    have hn : n < recvsize eth buffer := Nat.lt_of_not_le hlong
    exact Nat.lt_irrefl n (h _ (List.mem_map.mpr ⟨n, List.mem_range.mpr hn, rfl⟩))
  · intro h s hs
    obtain ⟨i, hi, rfl⟩ := List.mem_map.mp hs
    exact lt_of_lt_of_le (List.mem_range.mp hi) h

lemma input_carries_iff (h : (Operation.input eth staging frame pbufAlloc).Allowed) :
    (Operation.input eth staging frame pbufAlloc).Carries ↔
      (Operation.input eth staging frame pbufAlloc).Fits := by
  obtain ⟨hwait, hframe, halloc⟩ := h
  obtain ⟨buffer, hbuffer⟩ := Option.isSome_iff_exists.mp hwait
  cases hp : pbufAlloc (recvsize eth buffer) with
  | none =>
    constructor
    · intro _ b hb p hmem
      rw [hbuffer, Option.mem_some_iff] at hb
      rw [← hb, hp] at hmem
      exact absurd hmem (Option.not_mem_none p)
    · intro _
      refine ⟨buffer, hbuffer, _, llinput_of_none hbuffer hp, ?_⟩
      refine ⟨fun w hw => absurd hw List.not_mem_nil, fun q _ s hs => absurd hs List.not_mem_nil,
        fun q hq => absurd hq (Option.not_mem_none q), rfl⟩
  | some p =>
    have hsum := halloc _ p hp
    constructor
    · rintro ⟨b, hb, out, hout, hsafe⟩ b' hb' q hq
      rw [hbuffer, Option.mem_some_iff] at hb hb'
      subst hb hb'
      rw [hp, Option.mem_some_iff] at hq
      subst hq
      rw [llinput_of_some hbuffer hp, Option.mem_some_iff] at hout
      subst hout
      have hfirst := copied_inside_iff.mp (hsafe.payload p (Option.mem_def.mpr hp))
      refine ⟨hfirst, ?_⟩
      by_contra hlong
      have hbyte := hsafe.whole _ rfl (recvsize eth buffer) (Nat.lt_of_not_le hlong)
      have hlen := (List.getElem?_eq_some_iff.mp hbyte).1
      rw [contents_length_storePayload, hsum] at hlen
      exact Nat.lt_irrefl _ hlen
    · intro hfits
      obtain ⟨hfirst, hwhole⟩ := hfits buffer hbuffer p hp
      refine ⟨buffer, hbuffer, _, llinput_of_some hbuffer hp, ?_⟩
      refine ⟨recvfill_inside (recvsize_le eth buffer), fun q hq => ?_, fun q hq k hk => ?_, rfl⟩
      · rw [hp, Option.mem_some_iff] at hq
        subst hq
        exact copied_inside_iff.mpr hfirst
      · rw [Option.mem_some_iff] at hq
        subst hq
        have hsize : k < recvsize eth buffer := lt_of_lt_of_le hk hwhole
        have hk' : k < p.first.payload.length := lt_of_lt_of_le hsize hfirst
        rw [contents_storePayload hk', copied, getElem?_storePayload, if_pos hsize,
          List.getElem?_eq_getElem hk', Option.map_some, recvfill_byte hsize]

end Calls

theorem netif_carries_iff (op : Operation) (h : op.Allowed) : op.Carries ↔ op.Fits := by
  cases op with
  | output eth staging p => exact output_carries_iff h
  | input eth staging frame pbufAlloc => exact input_carries_iff h

/-- A frame of type 0x0800 in the ping buffer, and both transmit buffers free. -/
def pingFull : Eth where
  recvToggle := true
  sendToggle := true
  rxintr := 0
  txintr := 0
  rxbuffer _ i := if i = 3 then 0x08000000 else 0
  txbuffer _ _ := 0
  rxcontrol b := if b then 0 else controlStatus
  txcontrol _ := 0
  txlength _ := 0
  acks := []

def oneElement (n : ℕ) : Option Chain := some ⟨⟨List.replicate n 0⟩, []⟩

lemma oneElement_length (n : ℕ) (p : Chain) (h : oneElement n = some p) :
    (contents p.pbufs).length = n := by
  rw [oneElement, Option.some.injEq] at h
  subst h
  simp [contents, Chain.pbufs]

theorem netif_carries_small_frame :
    (Operation.input pingFull (fun _ => 0) 60 oneElement).Carries := by
  have hallowed : (Operation.input pingFull (fun _ => 0) 60 oneElement).Allowed :=
    ⟨rfl, by decide, oneElement_length⟩
  apply (netif_carries_iff _ hallowed).mpr
  intro buffer hbuffer p hp
  have hb : buffer = false := (Option.some.inj hbuffer).symm
  have hsize : recvsize pingFull false = 1500 := by decide
  rw [hb, hsize, oneElement, Option.mem_some_iff] at hp
  subst hp
  rw [hb, hsize, Pbuf.len, List.length_replicate]
  decide

def longestPacket : List Pbuf := [⟨List.replicate 1514 0⟩]

theorem netif_overruns_staging_buffer : ¬ ∀ op : Operation, op.Allowed → op.Carries := by
  intro hclaim
  have hlen : (contents longestPacket).length = 1514 := by
    rw [contents, longestPacket, List.flatMap_singleton]
    exact List.length_replicate
  have hallowed : (Operation.output pingFull (fun _ => 0) longestPacket).Allowed :=
    ⟨rfl, by rw [hlen]; decide⟩
  have hfits := (output_carries_iff hallowed).mp (hclaim _ hallowed)
  rw [Operation.Fits, hlen] at hfits
  exact absurd hfits (by decide)

end Hthreads.Ethlite
