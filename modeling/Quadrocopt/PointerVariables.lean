/-
# Pointer variables

The threads of both programs work with blocks through pointer variables, most of them with a
length next to the pointer.  A program is described by its variables, by its heap, and by a
table of the blocks that the variables point to; what a thread finds at a point of its code is
told by predicates on single variables (`FloatsIn`, `CopyIn`, `CharsIn`, `BufferIn`,
`PacketIn`), which only depend on that variable and its entry of the table (`Same`).

`copyInto`, `sendFloats` and `receivePack` are the lines of the two programs that copy a batch,
send one, and receive a packet.
-/
import Quadrocopt.PacketMemory

namespace OnHeap

open HeapProgram

/-- The pointer variables of a program, the lengths next to them, and what it has put out. -/
structure Vars (κ ω : Type) where
  ptr : κ → Ptr
  len : κ → ℕ
  out : ω

variable {κ ω : Type} [DecidableEq κ]

/-- A pointer and the length next to it are assigned. -/
def Vars.set (v : Vars κ ω) (k : κ) (p : Ptr) (n : ℕ) : Vars κ ω :=
  { v with ptr := Function.update v.ptr k p, len := Function.update v.len k n }

/-- Which blocks the variables point to. -/
abbrev Table (κ : Type) := κ → Option (ℕ × Block)

/-! ## What a variable points to -/

/-- Floats, with their number next to the pointer; no floats may be NULL. -/
def FloatsIn (v : Vars κ ω) (T : Table κ) (k : κ) (fs : List CFloat) : Prop :=
  v.len k = fs.length ∧ match v.ptr k with
    | none => fs = []
    | some p => T k = some (p, floatsBlock fs)

/-- A block of floats, even if there are none, with their number next to the pointer. -/
def CopyIn (v : Vars κ ω) (T : Table κ) (k : κ) (fs : List CFloat) : Prop :=
  v.len k = fs.length ∧ ∃ p, v.ptr k = some p ∧ T k = some (p, floatsBlock fs)

/-- A block of chars. -/
def CharsIn (v : Vars κ ω) (T : Table κ) (k : κ) (cs : List CChar) : Prop :=
  ∃ p, v.ptr k = some p ∧ T k = some (p, charsOf cs)

/-- A buffer for `recvfrom`. -/
def BufferIn (v : Vars κ ω) (T : Table κ) (k : κ) : Prop :=
  ∃ p cells, v.ptr k = some p ∧ T k = some (p, chars.array cells) ∧ cells.length = MAXBUF

/-- A packet, with its payload in a place of its own. -/
def PacketIn (v : Vars κ ω) (T : Table κ) (k k' : κ) (pack : Packet) : Prop :=
  ∃ p q, v.ptr k = some p ∧ T k = some (p, packetBlock pack q) ∧ T k' = some (q, charsOf pack.buf)

/-- Nothing has changed about a variable. -/
def Same (v v' : Vars κ ω) (T T' : Table κ) (k : κ) : Prop :=
  v'.ptr k = v.ptr k ∧ v'.len k = v.len k ∧ T' k = T k

section Frames

variable {v v' : Vars κ ω} {T T' : Table κ} {j k k' : κ} {fs : List CFloat}

theorem Same.set (hk : k ≠ j) (p : Ptr) (n : ℕ) (x : Option (ℕ × Block)) :
    Same v (v.set j p n) T (Function.update T j x) k :=
  ⟨Function.update_of_ne hk .., Function.update_of_ne hk .., Function.update_of_ne hk ..⟩

omit [DecidableEq κ]

theorem Same.trans {v'' : Vars κ ω} {T'' : Table κ} (h : Same v v' T T' k)
    (h' : Same v' v'' T' T'' k) : Same v v'' T T'' k :=
  ⟨h'.1.trans h.1, h'.2.1.trans h.2.1, h'.2.2.trans h.2.2⟩

/-- What a variable points to stays what it is, as long as the variable and its block do. -/
theorem FloatsIn.same (h : FloatsIn v T k fs) (hk : Same v v' T T' k) : FloatsIn v' T' k fs := by
  obtain ⟨hptr, hlen, hT⟩ := hk
  rw [FloatsIn, hptr, hlen, hT]
  exact h

theorem CopyIn.same (h : CopyIn v T k fs) (hk : Same v v' T T' k) : CopyIn v' T' k fs := by
  obtain ⟨hptr, hlen, hT⟩ := hk
  rw [CopyIn, hptr, hlen, hT]
  exact h

theorem CharsIn.same {cs : List CChar} (h : CharsIn v T k cs) (hk : Same v v' T T' k) :
    CharsIn v' T' k cs := by
  obtain ⟨hptr, -, hT⟩ := hk
  rw [CharsIn, hptr, hT]
  exact h

theorem BufferIn.same (h : BufferIn v T k) (hk : Same v v' T T' k) : BufferIn v' T' k := by
  obtain ⟨hptr, -, hT⟩ := hk
  rw [BufferIn, hptr, hT]
  exact h

theorem PacketIn.same {pack : Packet} (h : PacketIn v T k k' pack) (hk : Same v v' T T' k)
    (hk' : Same v v' T T' k') : PacketIn v' T' k k' pack := by
  obtain ⟨hptr, -, hT⟩ := hk
  obtain ⟨-, -, hT'⟩ := hk'
  rw [PacketIn, hptr, hT, hT']
  exact h

/-- A copy holds its floats. -/
theorem CopyIn.floatsIn (h : CopyIn v T k fs) : FloatsIn v T k fs := by
  obtain ⟨hlen, p, hptr, hT⟩ := h
  refine ⟨hlen, ?_⟩
  rw [hptr]
  exact hT

/-- Some floats are not NULL. -/
theorem FloatsIn.copyIn (h : FloatsIn v T k fs) (hfs : fs ≠ []) : CopyIn v T k fs := by
  obtain ⟨hlen, hptr⟩ := h
  refine ⟨hlen, ?_⟩
  cases hp : v.ptr k with
  | none =>
      rw [hp] at hptr
      exact absurd hptr hfs
  | some p =>
      rw [hp] at hptr
      exact ⟨p, rfl, hptr⟩

end Frames

/-! ## Working with what the variables point to -/

section Blocks

variable {h : Heap Block} {shared : Set κ} {v : Vars κ ω} {T : Table κ} {k k' : κ} {fs : List CFloat}

omit [DecidableEq κ] in
theorem FloatsIn.floatsAt (hk : FloatsIn v T k fs) (H : Holds h shared T) :
    FloatsAt h (v.ptr k) fs := by
  obtain ⟨-, hptr⟩ := hk
  cases hp : v.ptr k with
  | none =>
      rw [hp] at hptr
      exact hptr
  | some p =>
      rw [hp] at hptr
      exact H.found k p _ hptr

omit [DecidableEq κ] in
theorem PacketIn.packetAt {pack : Packet} (hk : PacketIn v T k k' pack) (H : Holds h shared T) :
    ∃ p q, v.ptr k = some p ∧ PacketAt h p q pack := by
  obtain ⟨p, q, hptr, hT, hT'⟩ := hk
  exact ⟨p, q, hptr, H.found _ _ _ hT, H.found _ _ _ hT'⟩

/-- A new block of floats in a variable. -/
theorem copyIn_set (v : Vars κ ω) (T : Table κ) (k : κ) (p : ℕ) (fs : List CFloat) :
    CopyIn (v.set k (some p) fs.length) (Function.update T k (some (p, floatsBlock fs))) k fs :=
  ⟨Function.update_self .., p, Function.update_self .., Function.update_self ..⟩

/-- A block of floats is released, if there is one. -/
theorem FloatsIn.free_run (hk : FloatsIn v T k fs) (H : Holds h shared T) (hshared : k ∉ shared) :
    ∃ h', free (v.ptr k) h = some ((), h') ∧ Holds h' shared (Function.update T k none)
      ∧ h'.count + (v.ptr k).isSome.toNat = h.count
      ∧ ∀ q, v.ptr k ≠ some q → h'.block q = h.block q := by
  obtain ⟨-, hptr⟩ := hk
  cases hp : v.ptr k with
  | none => exact ⟨h, rfl, H.forget _, rfl, fun _ _ => rfl⟩
  | some p =>
      rw [hp] at hptr
      refine ⟨h.drop p, HeapProgram.free_run (H.found _ _ _ hptr), H.drop hptr hshared,
        Heap.count_drop (H.found _ _ _ hptr), fun q hq => Heap.block_drop_of_ne ?_⟩
      rintro rfl
      exact hq rfl

/-- A block of floats is released. -/
theorem CopyIn.free_run (hk : CopyIn v T k fs) (H : Holds h shared T) (hshared : k ∉ shared) :
    ∃ h', free (v.ptr k) h = some ((), h') ∧ Holds h' shared (Function.update T k none)
      ∧ h'.count + 1 = h.count := by
  obtain ⟨h', hrun, H', hcount, -⟩ := hk.floatsIn.free_run H hshared
  obtain ⟨-, p, hptr, -⟩ := hk
  rw [hptr] at hcount
  exact ⟨h', hrun, H', hcount⟩

/-- A block of chars is released. -/
theorem CharsIn.free_run {cs : List CChar} (hk : CharsIn v T k cs) (H : Holds h shared T)
    (hshared : k ∉ shared) :
    ∃ h', free (v.ptr k) h = some ((), h') ∧ Holds h' shared (Function.update T k none)
      ∧ h'.count + 1 = h.count := by
  obtain ⟨p, hptr, hT⟩ := hk
  rw [hptr]
  exact ⟨_, HeapProgram.free_run (H.found _ _ _ hT), H.drop hT hshared,
    Heap.count_drop (H.found _ _ _ hT)⟩

/-- A packet is released. -/
theorem PacketIn.free_run {pack : Packet} (hk : PacketIn v T k k' pack) (H : Holds h shared T)
    (hapart : k ≠ k') (hshared : k ∉ shared) (hshared' : k' ∉ shared) :
    ∃ h', freePack (v.ptr k) h = some ((), h')
      ∧ Holds h' shared (Function.update (Function.update T k' none) k none)
      ∧ h'.count + 2 = h.count := by
  obtain ⟨p, q, hptr, hT, hT'⟩ := hk
  have H₁ := H.drop hT' hshared'
  have hT₁ : Function.update T k' none k = some (p, packetBlock pack q) := by
    rw [Function.update_of_ne hapart, hT]
  have hcount := Heap.count_drop (H.found _ _ _ hT')
  have hcount' := Heap.count_drop (H₁.found _ _ _ hT₁)
  refine ⟨(h.drop q).drop p, ?_, H₁.drop hT₁ hshared, by omega⟩
  rw [hptr]
  exact freePack_run ⟨H.found _ _ _ hT, H.found _ _ _ hT'⟩

/-! ### Copying -/

/-- A pointer is set to a copy of the floats of another one. -/
def copyInto (src dst : κ) (n : ℕ) (v : Vars κ ω) : Prog Block (Vars κ ω) := do
  let copy ← OnHeap.copyArrOfFloats (v.ptr src) n
  return v.set dst copy n

/-- A copy is made into a new block, and the variable points to that. -/
theorem copyInto_run {src dst : κ} {n : ℕ} (hsrc : FloatsIn v T src fs) (H : Holds h shared T)
    (hn : n = fs.length) :
    copyInto src dst n v h
      = some (v.set dst (some h.next) fs.length, h.push (floatsBlock fs)) := by
  subst hn
  rw [copyInto]
  refine (bind_run (copyArrOfFloats_run (hsrc.floatsAt H) le_rfl) _).trans ?_
  rw [List.take_length]
  rfl

/-! ### Sending -/

/-- Floats are sent in a packet. -/
def sendFloats (buf pack packBytes : κ) (v : Vars κ ω) : Prog Block (Vars κ ω × Datagram) := do
  let p ← OnHeap.genPacketFromFloats (v.ptr buf) (v.len buf)
  let bytes ← OnHeap.packToBytes p
  let packSize ← OnHeap.getPackBytesSize p
  let d ← sendto bytes packSize
  return ((v.set pack p 0).set packBytes bytes 0, d)

/-- **A send** leaves the packet and its bytes. -/
theorem sendFloats_run {buf pack payload packBytes : κ} (hbuf : FloatsIn v T buf fs)
    (H : Holds h shared T) (hpack : pack ≠ payload) (hbytes : pack ≠ packBytes)
    (hpayload : payload ≠ packBytes) :
    ∃ v' h' T', sendFloats buf pack packBytes v h = some ((v', datagramOf fs), h') ∧ v'.out = v.out
      ∧ Holds h' shared T' ∧ h'.count = h.count + 3
      ∧ PacketIn v' T' pack payload (genPacketFromFloats fs)
      ∧ CharsIn v' T' packBytes (packToBytes (genPacketFromFloats fs))
      ∧ ∀ k, k ≠ pack → k ≠ payload → k ≠ packBytes → Same v v' T T' k := by
  have hat : PacketAt ((pushPacket h (genPacketFromFloats fs)).skip fs.length) h.next
      (h.next + 1) (genPacketFromFloats fs) := (packetAt_pushPacket h _).skip _
  have hsize : getPackBytesSize (genPacketFromFloats fs)
      ≤ (packToBytes (genPacketFromFloats fs)).length := by
    rw [length_packToBytes]
    exact Nat.mod_le _ _
  have H' := ((((H.push pack (packetBlock (genPacketFromFloats fs) (h.next + 1))).push payload
    (charsOf (genPacketFromFloats fs).buf)).skip fs.length).push packBytes
      (charsOf (packToBytes (genPacketFromFloats fs)))).skip 2
  refine ⟨(v.set pack (some h.next) 0).set packBytes (some (h.next + 2 + fs.length)) 0, _, _, ?_,
    rfl, H', ?_, ?_, ?_, ?_⟩
  · rw [sendFloats, hbuf.1]
    refine (bind_run (genPacketFromFloats_run (hbuf.floatsAt H)) _).trans ?_
    refine (bind_run (packToBytes_run hat) _).trans ?_
    refine (bind_run (getPackBytesSize_run ((hat.push _).skip _)) _).trans ?_
    refine (bind_run (sendto_run (h := (Heap.push _ _).skip 2) (Heap.block_push_self ..) hsize)
      _).trans ?_
    rfl
  · simp
  · refine ⟨h.next, h.next + 1, ?_, ?_, ?_⟩
    · exact (Function.update_of_ne hbytes ..).trans (Function.update_self ..)
    · rw [Function.update_of_ne hbytes, Function.update_of_ne hpack, Function.update_self]
    · rw [Function.update_of_ne hpayload, Function.update_self]
      rfl
  · exact ⟨_, Function.update_self .., Function.update_self ..⟩
  · intro k hk hk' hk''
    refine ⟨?_, ?_, ?_⟩
    · exact (Function.update_of_ne hk'' ..).trans (Function.update_of_ne hk ..)
    · exact (Function.update_of_ne hk'' ..).trans (Function.update_of_ne hk ..)
    · rw [Function.update_of_ne hk'', Function.update_of_ne hk', Function.update_of_ne hk]

/-! ### Receiving -/

/-- `recvfrom` and `bytes_to_pack`. -/
def receivePack (bufin pack : κ) (d : Datagram) (v : Vars κ ω) : Prog Block (Vars κ ω) := do
  OnHeap.recvfrom (v.ptr bufin) d
  let receivedPack ← OnHeap.bytesToPack (v.ptr bufin)
  return v.set pack receivedPack 0

/-- **A receive** leaves the packet of the datagram, and one more block. -/
theorem receivePack_run {bufin pack payload : κ} (H : Holds h shared T) (hbufin : BufferIn v T bufin)
    (hshared : bufin ∉ shared) (hpack : pack ≠ bufin) (hpayload : payload ≠ bufin)
    (hapart : pack ≠ payload) {d : Datagram} {p : Packet} (hd : WellFormed d)
    (hp : bytesToPack d.get = .ok p) :
    ∃ v' h' T', receivePack bufin pack d v h = some (v', h') ∧ v'.out = v.out
      ∧ Holds h' shared T' ∧ h'.count = h.count + 3 ∧ BufferIn v' T' bufin
      ∧ PacketIn v' T' pack payload p
      ∧ ∀ k, k ≠ bufin → k ≠ pack → k ≠ payload → Same v v' T T' k := by
  obtain ⟨b, cells, hptr, hT, hcells⟩ := hbufin
  have hle : d.length ≤ cells.length := hcells.symm ▸ hd.length_le
  have hlength : (d.map some ++ cells.drop d.length).length = MAXBUF := by
    rw [List.length_append, List.length_map, List.length_drop]
    omega
  have hbuffer : BufferAt (h.put b (chars.array (d.map some ++ cells.drop d.length))) b d :=
    ⟨_, Heap.block_put_self (H.found _ _ _ hT)⟩
  have H' := ((((H.put hT hshared (chars.array (d.map some ++ cells.drop d.length))).skip 1).push pack
    (packetBlock p (h.next + 3))).push_lost (charsOf ((d.drop 4).take 4))).push payload
      (charsOf p.buf)
  refine ⟨v.set pack (some (h.next + 1)) 0, _, _, ?_, rfl, H', ?_, ?_, ?_, ?_⟩
  · rw [receivePack, hptr]
    refine (bind_run (recvfrom_run (H.found _ _ _ hT) hle) _).trans ?_
    refine (bind_run (bytesToPack_run hbuffer hd.selfContained hp) _).trans ?_
    rfl
  · simp
  · refine ⟨b, _, ?_, ?_, hlength⟩
    · rw [← hptr]
      exact Function.update_of_ne hpack.symm _ _
    · rw [Function.update_of_ne hpayload.symm, Function.update_of_ne hpack.symm, Function.update_self]
  · refine ⟨h.next + 1, h.next + 3, Function.update_self .., ?_, Function.update_self ..⟩
    rw [Function.update_of_ne hapart]
    exact Function.update_self ..
  · intro k hk hk' hk''
    refine ⟨Function.update_of_ne hk' .., Function.update_of_ne hk' .., ?_⟩
    rw [Function.update_of_ne hk'', Function.update_of_ne hk', Function.update_of_ne hk]

end Blocks

end OnHeap
