/-
# The memory of the server

The four threads of the server with the blocks that they allocate, release and point to: the
control of `Server.lean` says which thread moves, and the code of each step is executed on a
heap, through the pointer variables of the source.

Over datagrams of the sizes that the client sends, no thread goes wrong in any interleaving:
nothing is read outside a block or after its release, nothing is released twice, and nothing
is used before it was written (`server_no_fault`).  The memory refines the control: what is sent are the
bytes of the results, and every block that is live beyond those of the start belongs to the history
(`server_memory_refines`).  Twelve blocks of each request and three of each result are never
released, so that the memory grows (`server_leaks`); among them is the old result in
`add_to_calculations_stock`, which the sender may still read.

The loops start on any heap: the blocks that the threads were set up with (the structures with
their mutexes and condition packs, the stocks, the threads) are on it, and all counts are of the
blocks beyond them.
-/
import Quadrocopt.HeapMachine
import Quadrocopt.PointerVariables
import Quadrocopt.Progress

namespace ServerMemory

open HeapProgram OnHeap Transition
open Server (ListenerType)

/-! ## The variables -/

/-- The pointers of the threads: for each listener its buffer, its packet and the payload of
that; the stock of batches, and what the calculator has copied from it; the stock of results,
the sender's pointer to the result, and the packet with it. -/
inductive Place where
  | bufin (l : ListenerType)
  | pack (l : ListenerType)
  | payload (l : ListenerType)
  | half (l : ListenerType)
  | batch (l : ListenerType)
  | calculations
  | calcs
  | reply
  | replyPayload
  | replyBytes
  deriving DecidableEq

/-- The variables of the threads, and the datagrams sent. -/
abbrev Vars := OnHeap.Vars Place (List Datagram)

/-! ## The code -/

/-- `add_to_batch`, and the length next to the batch. -/
def addToBatch (l : ListenerType) (batch : Ptr) (batchLen : ℕ) (v : Vars) : Prog Block Vars := do
  free (v.ptr (.half l))
  let copy ← OnHeap.copyArrOfFloats batch batchLen
  return v.set (.half l) copy batchLen

/-- `store_batch`, and the message that is printed behind it. -/
def storeBatch (l : ListenerType) (v : Vars) : Prog Block Vars := do
  let payload ← OnHeap.getFloats (v.ptr (.pack l))
  let count ← OnHeap.getFloatsCount (v.ptr (.pack l))
  let v ← addToBatch l payload count v
  let msg ← chars.malloc 35
  free msg
  return v

/-- `get_first_stock_from_batch` and `get_second_stock_from_batch`. -/
def getStockFromBatch (l : ListenerType) (v : Vars) : Prog Block Vars :=
  copyInto (.half l) (.batch l) (v.len (.half l)) v

/-- `clean_batch_stock`. -/
def cleanBatchStock (v : Vars) : Prog Block Vars := do
  free (v.ptr (.half .first))
  let v := v.set (.half .first) none 0
  free (v.ptr (.half .second))
  return v.set (.half .second) none 0

section Code

variable (serverCalculations : List CFloat → List.Vector CFloat 4)

/-- `server_calculations` on thirteen floats, with the block that `tanRh` returns. -/
def serverCalculationsOn (params : Ptr) : Prog Block Ptr := do
  let received ← (List.range 13).mapM fun i => floats.load params i
  let refTrajSt ← floats.malloc 6
  let res ← floats.malloc 4
  forRange 4 fun i => floats.store res i ((serverCalculations received).toList.getD i 0)
  free refTrajSt
  return res

/-- `calculate_res`. -/
def calculateRes (v : Vars) : Prog Block Vars := do
  let firstBatchLen := v.len (.batch .first)
  let secondBatchLen := v.len (.batch .second)
  let receivedData ← floats.malloc (firstBatchLen + secondBatchLen)
  floats.memcpy receivedData 0 (v.ptr (.batch .first)) 0 firstBatchLen
  floats.memcpy receivedData firstBatchLen (v.ptr (.batch .second)) 0 secondBatchLen
  let calcsResults ← serverCalculationsOn serverCalculations receivedData
  free receivedData
  let copy ← OnHeap.copyArrOfFloats calcsResults 4
  return v.set .calculations copy 4

/-- The first lines of `send_calcs`. -/
def readCalcs (v : Vars) : Vars := v.set .calcs (v.ptr .calculations) (v.len .calculations)

/-- The rest of `send_calcs`. -/
def sendCalcs (v : Vars) : Prog Block Vars := do
  let (v, d) ← sendFloats .calcs .reply .replyBytes v
  return { v with out := v.out ++ [d] }

/-- What a thread executes in its next step. -/
def code (s : Server.State) (v : Vars) : Server.Action → Prog Block Vars
  | .receive l d => receivePack (.bufin l) (.pack l) d v
  | .listener l =>
      match s.listener l with
      | .store _ => storeBatch l v
      | _ => pure v
  | .calculator =>
      match s.calculator with
      | .getFirst => getStockFromBatch .first v
      | .getSecond _ => getStockFromBatch .second v
      | .cleanStock _ _ => cleanBatchStock v
      | .calculateRes _ _ => calculateRes serverCalculations v
      | _ => pure v
  | .sender =>
      match s.sender with
      | .readCalcs => pure (readCalcs v)
      | .send _ => sendCalcs v
      | _ => pure v

/-- The server and its memory. -/
abbrev State := HeapMachine.WithHeap Server.State Vars Block

/-- The state in which the loops start.  On the heap `start`, whatever the threads were set up
with, the listeners have allocated their buffers, and what these hold was not written yet. -/
def init (start : Heap Block) (bufin : ListenerType → Buf) : State where
  control := Server.init bufin
  vars := ⟨fun
    | .bufin .first => some start.next
    | .bufin .second => some (start.next + 1)
    | _ => none, fun _ => 0, []⟩
  heap := (start.push (chars.array (written [] MAXBUF))).push (chars.array (written [] MAXBUF))

/-- One step of the server and its memory. -/
def step : State → Server.Action → Option State :=
  HeapMachine.step (Server.step serverCalculations) (code serverCalculations)

end Code

/-- The numbers of floats in the two halves of a request. -/
def halfLen : ListenerType → ℕ
  | .first => 6
  | .second => 7

/-- What is received is the half of a request. -/
def HalfReceived (_s : Server.State) (a : Server.Action) : Prop :=
  ∀ l d, a = .receive l d → WellFormed d ∧ (floatsOf d).length = halfLen l

/-! ## The memory against the control -/

/-- Who may point to the same block: the stock of the results and the sender. -/
def shared : Set Place := {.calculations, .calcs}

/-- What a listener points to. -/
def ListenerIn (v : Vars) (T : Table Place) (l : ListenerType) : Server.ListenerPc → Prop
  | .waitUntilCalcReads pack | .store pack => PacketIn v T (.pack l) (.payload l) pack
  | _ => True

/-- What the calculator points to. -/
def CalculatorIn (v : Vars) (T : Table Place) : Server.CalculatorPc → Prop
  | .getSecond firstBatch => FloatsIn v T (.batch .first) firstBatch.floats
  | .cleanStock firstBatch secondBatch | .signalFirst firstBatch secondBatch
  | .signalSecond firstBatch secondBatch | .calculateRes firstBatch secondBatch =>
      FloatsIn v T (.batch .first) firstBatch.floats
        ∧ FloatsIn v T (.batch .second) secondBatch.floats
  | _ => True

/-- What the sender points to. -/
def SenderIn (v : Vars) (T : Table Place) : Server.SenderPc → Prop
  | .send calcs => FloatsIn v T .calcs calcs
  | _ => True

/-- The variables point to what the control says. -/
structure Matches (s : Server.State) (v : Vars) (T : Table Place) : Prop where
  bufin : ∀ l, BufferIn v T (.bufin l)
  half : ∀ l, FloatsIn v T (.half l) (s.bs.half l).floats
  calculations : FloatsIn v T .calculations s.cs.calculations.floats
  listener : ∀ l, ListenerIn v T l (s.listener l)
  calculator : CalculatorIn v T s.calculator
  sender : SenderIn v T s.sender

/-- How often listener `l` has stored a batch. -/
def stored (s : Server.State) (l : ListenerType) : ℕ :=
  (s.handed l).length + match s.listener l with
    | .signalReady _ => 1
    | _ => 0

/-- The blocks of one listener, and of the copies that are made of its batches. -/
def listenerBlocks (s : Server.State) (v : Vars) (l : ListenerType) : ℕ :=
  3 * (s.received l).length + stored s l + (s.read l).length + (v.ptr (.half l)).isSome.toNat

/-- The blocks beyond those of the start: the two buffers, those of the listeners, the two of each
computation and the three of each result that is sent. -/
def blocks (s : Server.State) (v : Vars) : ℕ :=
  2 + (listenerBlocks s v .first + listenerBlocks s v .second) + 2 * s.computed.length
    + 3 * s.sent.length

/-- The memory is as the control says, by a table of the blocks that the variables point to. -/
structure Fits (start : Heap Block) (s : Server.State) (v : Vars) (h : Heap Block)
    (T : Table Place) : Prop where
  holds : Holds h shared T
  fits : Matches s v T
  count : h.count = start.count + blocks s v

/-- The memory is as the control says, and what was sent are the bytes of the results. -/
def Represents (start : Heap Block) (m : State) : Prop :=
  (∃ T, Fits start m.control m.vars m.heap T) ∧ m.vars.out = m.control.sent.map datagramOf

/-! ## What the steps do to the memory -/

section Frames

variable {v v' : Vars} {T T' : Table Place} {l : ListenerType}

theorem ListenerIn.same {pc : Server.ListenerPc} (h : ListenerIn v T l pc)
    (hpack : Same v v' T T' (.pack l)) (hpayload : Same v v' T T' (.payload l)) :
    ListenerIn v' T' l pc := by
  unfold ListenerIn at h ⊢
  cases pc with
  | waitUntilCalcReads pack => exact h.same hpack hpayload
  | store pack => exact h.same hpack hpayload
  | _ => trivial

theorem CalculatorIn.same {pc : Server.CalculatorPc} (h : CalculatorIn v T pc)
    (hbatch : ∀ l, Same v v' T T' (.batch l)) : CalculatorIn v' T' pc := by
  unfold CalculatorIn at h ⊢
  cases pc with
  | getSecond b => exact h.same (hbatch .first)
  | cleanStock b c => exact ⟨h.1.same (hbatch .first), h.2.same (hbatch .second)⟩
  | signalFirst b c => exact ⟨h.1.same (hbatch .first), h.2.same (hbatch .second)⟩
  | signalSecond b c => exact ⟨h.1.same (hbatch .first), h.2.same (hbatch .second)⟩
  | calculateRes b c => exact ⟨h.1.same (hbatch .first), h.2.same (hbatch .second)⟩
  | _ => trivial

theorem SenderIn.same {pc : Server.SenderPc} (h : SenderIn v T pc)
    (hcalcs : Same v v' T T' .calcs) : SenderIn v' T' pc := by
  unfold SenderIn at h ⊢
  cases pc with
  | send calcs => exact h.same hcalcs
  | _ => trivial

end Frames

section Steps

variable {h : Heap Block} {v : Vars} {T : Table Place} {l : ListenerType}

/-- **A batch is stored.** -/
theorem storeBatch_run (H : Holds h shared T) {pack : Packet} {copy : SizedBuf} {fs : List CFloat}
    (hpack : PacketIn v T (.pack l) (.payload l) pack) (hhalf : FloatsIn v T (.half l) fs)
    (hcopy : copyOfPacket pack = some copy) :
    ∃ r h', storeBatch l v h = some (v.set (.half l) (some r) copy.floats.length, h')
      ∧ Holds h' shared (Function.update T (.half l) (some (r, floatsBlock copy.floats)))
      ∧ h'.count + (v.ptr (.half l)).isSome.toNat = h.count + 2 := by
  obtain ⟨p, q, hptr, hat⟩ := hpack.packetAt H
  obtain ⟨hcount, hfloats⟩ := floats_of_copyArrOfFloats hcopy
  have hlen : copy.floats.length = getFloatsCount pack := by
    rw [hfloats, List.length_take, Nat.min_eq_left hcount]
  obtain ⟨h₁, hfree, H₁, hcount₁, hblock⟩ := hhalf.free_run
    ((H.push_lost (floatsBlock (getFloats pack))).skip (pack.length.toNat / 4)) (by simp [shared])
  have hpayloadAt : FloatsAt h₁ (some h.next) (getFloats pack) := by
    refine (hblock h.next ?_).trans (Heap.block_push_self ..)
    intro hold
    have hnew := hhalf.2
    rw [hold] at hnew
    exact absurd (H.lt_next hnew) (Nat.lt_irrefl _)
  refine ⟨h₁.next, ((h₁.push (floatsBlock copy.floats)).skip 1), ?_, ?_, ?_⟩
  · rw [storeBatch, hptr]
    refine (bind_run (getFloats_run hat) _).trans ?_
    refine (bind_run (getFloatsCount_run ((hat.push _).skip _)) _).trans ?_
    have hadd : addToBatch l (some h.next) (getFloatsCount pack) v
        ((h.push (floatsBlock (getFloats pack))).skip (pack.length.toNat / 4))
        = some (v.set (.half l) (some h₁.next) copy.floats.length,
            h₁.push (floatsBlock copy.floats)) := by
      rw [addToBatch]
      refine (bind_run hfree _).trans ?_
      refine (bind_run (copyArrOfFloats_run hpayloadAt hcount) _).trans ?_
      rw [← hfloats, hlen]
      rfl
    refine (bind_run hadd _).trans ?_
    refine (bind_run chars.malloc_run _).trans ?_
    refine (bind_run (free_run (Heap.block_push_self ..)) _).trans ?_
    rw [Heap.drop_push]
    rfl
  · have H₂ := (H₁.push (.half l) (floatsBlock copy.floats)).skip 1
    rwa [Function.update_idem] at H₂
  · simp only [Heap.count_skip, Heap.count_push] at hcount₁ ⊢
    omega

/-- **The stock is cleaned.** -/
theorem cleanBatchStock_run (H : Holds h shared T) {fs gs : List CFloat}
    (hfirst : FloatsIn v T (.half .first) fs) (hsecond : FloatsIn v T (.half .second) gs) :
    ∃ h', cleanBatchStock v h = some ((v.set (.half .first) none 0).set (.half .second) none 0, h')
      ∧ Holds h' shared
        (Function.update (Function.update T (.half .first) none) (.half .second) none)
      ∧ h'.count + (v.ptr (.half .first)).isSome.toNat + (v.ptr (.half .second)).isSome.toNat
        = h.count := by
  obtain ⟨h₁, hfree₁, H₁, hcount₁, -⟩ := hfirst.free_run H (by simp [shared])
  have hsecond' : FloatsIn (v.set (.half .first) none 0) (Function.update T (.half .first) none)
      (.half .second) gs := hsecond.same (Same.set (by simp) ..)
  obtain ⟨h₂, hfree₂, H₂, hcount₂, -⟩ := hsecond'.free_run H₁ (by simp [shared])
  refine ⟨h₂, ?_, H₂, ?_⟩
  · rw [cleanBatchStock]
    refine (bind_run hfree₁ _).trans ?_
    refine (bind_run hfree₂ _).trans ?_
    rfl
  · simp only [OnHeap.Vars.set, Function.update_apply, Place.half.injEq, reduceCtorEq, if_false] at hcount₂
    omega

/-- The control law reads all of thirteen floats, and leaves its result. -/
theorem serverCalculationsOn_run (serverCalculations : List CFloat → List.Vector CFloat 4) {p : ℕ}
    {fs : List CFloat} (hp : h.block p = some (floatsBlock fs)) (hfs : fs.length = 13) :
    serverCalculationsOn serverCalculations (some p) h
      = some (some (h.next + 1), (h.skip 1).push (floatsBlock (serverCalculations fs).toList)) := by
  rw [serverCalculationsOn]
  refine (bind_run (loadAll_run hp hfs) _).trans ?_
  refine (bind_run floats.malloc_run _).trans ?_
  refine (bind_run floats.malloc_run _).trans ?_
  refine (bind_run (fillFloats_run (List.Vector.toList_length _)) _).trans ?_
  refine (bind_run (free_run (Heap.block_push (Heap.block_push_self ..))) _).trans ?_
  rw [Heap.drop_push_of_ne (by simp), Heap.drop_push]
  rfl

/-- **A computation**, on the halves of a request. -/
theorem calculateRes_run (serverCalculations : List CFloat → List.Vector CFloat 4)
    (H : Holds h shared T) {fs gs : List CFloat} (hfirst : FloatsIn v T (.batch .first) fs)
    (hsecond : FloatsIn v T (.batch .second) gs) (hfs : fs.length = 6) (hgs : gs.length = 7) :
    calculateRes serverCalculations v h
      = some (v.set .calculations (some (h.next + 3)) 4,
          ((h.skip 2).push (floatsBlock (serverCalculations (fs ++ gs)).toList)).push
            (floatsBlock (serverCalculations (fs ++ gs)).toList)) := by
  obtain ⟨-, p, hp, hT⟩ := hfirst.copyIn (by rintro rfl; cases hfs)
  obtain ⟨-, q, hq, hT'⟩ := hsecond.copyIn (by rintro rfl; cases hgs)
  have hpblock := H.found _ _ _ hT
  have hqblock := H.found _ _ _ hT'
  have hroom : ([] : List CFloat).length + fs.length ≤ 13 := by simp [hfs]
  have hroom' : fs.length + gs.length ≤ 13 := by simp [hfs, hgs]
  have hfirstCopy := floats.memcpy_written (j := 0) (Heap.block_push_self h _)
    (Heap.block_push hpblock) hroom (by simp)
  have hsecondCopy := floats.memcpy_written (h := h.push (floats.array (written fs 13))) (j := 0)
    (Heap.block_push_self h _) (Heap.block_push hqblock) hroom' (by simp)
  rw [List.nil_append, List.length_nil, hfs, Heap.put_push] at hfirstCopy
  rw [hfs, hgs, Heap.put_push, written_full (show (fs ++ gs).length = 13 by simp [hfs, hgs])]
    at hsecondCopy
  have hlen : (serverCalculations (fs ++ gs)).toList.length = 4 := List.Vector.toList_length _
  rw [calculateRes, hfirst.1, hsecond.1, hfs, hgs, hp, hq]
  refine (bind_run floats.malloc_run _).trans ?_
  refine (bind_run hfirstCopy _).trans ?_
  refine (bind_run hsecondCopy _).trans ?_
  refine (bind_run (serverCalculationsOn_run serverCalculations (Heap.block_push_self h _)
    (by simp [hfs, hgs])) _).trans ?_
  refine (bind_run (free_run (Heap.block_push (h := (h.push _).skip 1)
    (Heap.block_push_self h _))) _).trans ?_
  rw [Heap.drop_push_of_ne (by simp; omega), Heap.drop_skip, Heap.drop_push, Heap.skip_skip]
  have hres : FloatsAt ((h.skip 2).push (floatsBlock (serverCalculations (fs ++ gs)).toList))
      (some (h.next + 2)) (serverCalculations (fs ++ gs)).toList :=
    Heap.block_push_self (h.skip 2) _
  refine (bind_run (copyArrOfFloats_run hres hlen.ge) _).trans ?_
  rw [List.take_of_length_le hlen.le]
  rfl

end Steps

/-! ## The lengths of the halves -/

section Lengths

variable {serverCalculations : List CFloat → List.Vector CFloat 4} {bufin : ListenerType → Buf}
  {as : List Server.Action} {s : Server.State}

theorem wellFormed_run (hrun : Run (Server.step serverCalculations) HalfReceived (Server.init bufin)
    as s) : Run (Server.step serverCalculations) Server.WellFormedReceive (Server.init bufin) as s :=
  hrun.mono fun _ _ hP l d ha => (hP l d ha).1

/-- What listener `l` receives has the length of its half. -/
theorem length_of_mem_received (hrun : Run (Server.step serverCalculations) HalfReceived
    (Server.init bufin) as s) (l : ListenerType) :
    ∀ d ∈ s.received l, (floatsOf d).length = halfLen l := by
  induction hrun with
  | nil =>
      intro d hd
      cases hd
  | snoc _ hP hstep ih =>
      cases (Server.step_move hstep).listenerMove l with
      | receive d pack ha hpack hhand hhand' hreceived hhanded hbufin =>
          intro d' hd'
          rw [hreceived] at hd'
          rcases List.mem_append.mp hd' with hold | hnew
          · exact ih d' hold
          · rw [List.mem_singleton.mp hnew]
            exact (hP l d ha).2
      | frame hpc hreceived hhanded hbufin => rwa [hreceived]
      | proceed hhand hreceived hhanded hbufin => rwa [hreceived]
      | signal pack hpc hhand hhand' hreceived hhanded hbufin => rwa [hreceived]

/-- So has what the calculator reads. -/
theorem length_of_mem_read (hrun : Run (Server.step serverCalculations) HalfReceived
    (Server.init bufin) as s) (l : ListenerType) : ∀ fs ∈ s.read l, fs.length = halfLen l := by
  have hwf := wellFormed_run hrun
  have hread : s.read l <+: (s.received l).map floatsOf := by
    rw [Server.received_eq hwf l]
    exact (((Server.inv_run hwf).half l).takes_prefix_puts).trans (List.prefix_append _ _)
  intro fs hfs
  obtain ⟨d, hd, rfl⟩ := List.mem_map.mp (hread.subset hfs)
  exact length_of_mem_received hrun l d hd

/-- The two halves that are computed on. -/
theorem length_batches (hrun : Run (Server.step serverCalculations) HalfReceived
    (Server.init bufin) as s) {firstBatch secondBatch : SizedBuf}
    (hpc : s.calculator = .calculateRes firstBatch secondBatch) :
    firstBatch.floats.length = 6 ∧ secondBatch.floats.length = 7 := by
  have hread (l : ListenerType) := Server.read_eq hrun l
  rw [hpc] at hread
  exact ⟨length_of_mem_read hrun .first _ (by rw [hread]; simp),
    length_of_mem_read hrun .second _ (by rw [hread]; simp)⟩

end Lengths

/-! ## Every step keeps the memory as the control says -/

section Keeps

variable {serverCalculations : List CFloat → List.Vector CFloat 4} {s s' : Server.State} {v v' : Vars}
  {start h h' : Heap Block} {T T' : Table Place} {a : Server.Action} {l : ListenerType}

/-- The step of a thread that does not touch the memory. -/
theorem Fits.idle (F : Fits start s v h T) (hbs : s'.bs = s.bs) (hcs : s'.cs = s.cs)
    (hblocks : blocks s' v = blocks s v)
    (hlistener : ∀ l, ListenerIn v T l (s.listener l) → ListenerIn v T l (s'.listener l))
    (hcalculator : CalculatorIn v T s.calculator → CalculatorIn v T s'.calculator)
    (hsender : SenderIn v T s.sender → SenderIn v T s'.sender) : Fits start s' v h T := by
  obtain ⟨H, M, hcount⟩ := F
  refine ⟨H, ⟨M.bufin, ?_, ?_, fun l => hlistener l (M.listener l), hcalculator M.calculator,
    hsender M.sender⟩, ?_⟩
  · rw [hbs]
    exact M.half
  · rw [hcs]
    exact M.calculations
  · rw [hblocks]
    exact hcount

theorem Fits.receive (F : Fits start s v h T) {d : Datagram} {pack : Packet} (b : Buf)
    (hpc : s.listener l = .receive) (hd : WellFormed d) (hpack : bytesToPack d.get = .ok pack) :
    ∃ v' h' T', receivePack (.bufin l) (.pack l) d v h = some (v', h') ∧ v'.out = v.out
      ∧ Fits start { s with
        bufin := Function.update s.bufin l b
        listener := Function.update s.listener l (.waitUntilCalcReads pack)
        received := Function.update s.received l (s.received l ++ [d]) } v' h' T' := by
  obtain ⟨H, M, hcount⟩ := F
  obtain ⟨v', h', T', hrun, hout, H', hcount', hbufin, hpackIn, hsame⟩ :=
    receivePack_run H (M.bufin l) (by simp [shared]) (show Place.pack l ≠ .bufin l by simp)
      (show Place.payload l ≠ .bufin l by simp) (by simp) hd hpack
  have hhalf (l' : ListenerType) := hsame (.half l') (by simp) (by simp) (by simp)
  refine ⟨v', h', T', hrun, hout, H', ⟨?_, ?_, ?_, ?_, ?_, ?_⟩, ?_⟩
  · intro l'
    by_cases hl : l' = l
    · subst hl
      exact hbufin
    · exact (M.bufin l').same (hsame _ (by simp [hl]) (by simp) (by simp))
  · exact fun l' => (M.half l').same (hhalf l')
  · exact M.calculations.same (hsame _ (by simp) (by simp) (by simp))
  · intro l'
    by_cases hl : l' = l
    · subst hl
      simp only [Function.update_self]
      exact hpackIn
    · simp only [Function.update_of_ne hl]
      exact (M.listener l').same (hsame _ (by simp) (by simp [hl]) (by simp))
        (hsame _ (by simp) (by simp) (by simp [hl]))
  · exact M.calculator.same fun l' => hsame _ (by simp) (by simp) (by simp)
  · exact M.sender.same (hsame _ (by simp) (by simp) (by simp))
  · cases l <;>
      simp [blocks, listenerBlocks, stored, (hhalf _).1, hpc] at hcount ⊢ <;> omega

theorem Fits.storeBatch (F : Fits start s v h T) {pack : Packet} {copy : SizedBuf} {bs : Server.BatchStock}
    (hpc : s.listener l = .store pack) (hcopy : copyOfPacket pack = some copy)
    (hbs : ∀ l', bs.half l' = if l' = l then copy else s.bs.half l') :
    ∃ v' h' T', storeBatch l v h = some (v', h') ∧ v'.out = v.out ∧ Fits start { s with
      bs := bs, listener := Function.update s.listener l (.signalReady pack) } v' h' T' := by
  obtain ⟨H, M, hcount⟩ := F
  have hpack : PacketIn v T (.pack l) (.payload l) pack := by
    have hlistener := M.listener l
    rwa [hpc] at hlistener
  obtain ⟨r, h', hrun, H', hcount'⟩ := storeBatch_run H hpack (M.half l) hcopy
  have hsame (k : Place) (hk : k ≠ .half l) := Same.set (v := v) (T := T) hk (some r)
    copy.floats.length (some (r, floatsBlock copy.floats))
  refine ⟨_, h', _, hrun, rfl, H', ⟨?_, ?_, ?_, ?_, ?_, ?_⟩, ?_⟩
  · exact fun l' => (M.bufin l').same (hsame _ (by simp))
  · intro l'
    by_cases hl : l' = l
    · subst hl
      rw [hbs, if_pos rfl]
      exact (copyIn_set ..).floatsIn
    · rw [hbs, if_neg hl]
      exact (M.half l').same (hsame _ (by simp [hl]))
  · exact M.calculations.same (hsame _ (by simp))
  · intro l'
    by_cases hl : l' = l
    · subst hl
      simp [ListenerIn]
    · simp only [Function.update_of_ne hl]
      exact (M.listener l').same (hsame _ (by simp)) (hsame _ (by simp))
  · exact M.calculator.same fun l' => hsame _ (by simp)
  · exact M.sender.same (hsame _ (by simp))
  · cases l <;> simp [blocks, listenerBlocks, stored, OnHeap.Vars.set, hpc] at hcount ⊢ <;> omega

theorem Fits.getFirst (F : Fits start s v h T) :
    ∃ v' h' T', getStockFromBatch .first v h = some (v', h') ∧ v'.out = v.out ∧ Fits start { s with
      calculator := .getSecond s.bs.firstBatch
      read := Function.update s.read .first (s.read .first ++ [s.bs.firstBatch.floats]) } v' h' T' := by
  obtain ⟨H, M, hcount⟩ := F
  have hsame (k : Place) (hk : k ≠ .batch .first) := Same.set (v := v) (T := T) hk (some h.next)
    (s.bs.half .first).floats.length (some (h.next, floatsBlock (s.bs.half .first).floats))
  refine ⟨_, _, _, copyInto_run (M.half .first) H (M.half .first).1, rfl, H.push (.batch .first) _,
    ⟨fun l => (M.bufin l).same (hsame _ (by simp)), fun l => (M.half l).same (hsame _ (by simp)),
      M.calculations.same (hsame _ (by simp)),
      fun l => (M.listener l).same (hsame _ (by simp)) (hsame _ (by simp)), ?_,
      M.sender.same (hsame _ (by simp))⟩, ?_⟩
  · exact (copyIn_set ..).floatsIn
  · simp [blocks, listenerBlocks, stored, OnHeap.Vars.set] at hcount ⊢
    omega

theorem Fits.getSecond (F : Fits start s v h T) {firstBatch : SizedBuf}
    (hpc : s.calculator = .getSecond firstBatch) :
    ∃ v' h' T', getStockFromBatch .second v h = some (v', h') ∧ v'.out = v.out ∧ Fits start { s with
      calculator := .cleanStock firstBatch s.bs.secondBatch
      read := Function.update s.read .second (s.read .second ++ [s.bs.secondBatch.floats]) }
        v' h' T' := by
  obtain ⟨H, M, hcount⟩ := F
  have hfirst : FloatsIn v T (.batch .first) firstBatch.floats := by
    have hcalculator := M.calculator
    rwa [hpc] at hcalculator
  have hsame (k : Place) (hk : k ≠ .batch .second) := Same.set (v := v) (T := T) hk (some h.next)
    (s.bs.half .second).floats.length (some (h.next, floatsBlock (s.bs.half .second).floats))
  refine ⟨_, _, _, copyInto_run (M.half .second) H (M.half .second).1, rfl, H.push (.batch .second) _,
    ⟨fun l => (M.bufin l).same (hsame _ (by simp)), fun l => (M.half l).same (hsame _ (by simp)),
      M.calculations.same (hsame _ (by simp)),
      fun l => (M.listener l).same (hsame _ (by simp)) (hsame _ (by simp)),
      ⟨hfirst.same (hsame _ (by simp)), (copyIn_set ..).floatsIn⟩,
      M.sender.same (hsame _ (by simp))⟩, ?_⟩
  simp [blocks, listenerBlocks, stored, OnHeap.Vars.set] at hcount ⊢
  omega

theorem Fits.cleanStock (F : Fits start s v h T) {firstBatch secondBatch : SizedBuf}
    (hpc : s.calculator = .cleanStock firstBatch secondBatch) :
    ∃ v' h' T', cleanBatchStock v h = some (v', h') ∧ v'.out = v.out ∧ Fits start { s with
      bs := ⟨SizedBuf.null, SizedBuf.null⟩
      calculator := .signalFirst firstBatch secondBatch } v' h' T' := by
  obtain ⟨H, M, hcount⟩ := F
  obtain ⟨h', hrun, H', hcount'⟩ := cleanBatchStock_run H (M.half .first) (M.half .second)
  have hsame (k : Place) (hk : k ≠ .half .first) (hk' : k ≠ .half .second) :
      Same v ((v.set (.half .first) none 0).set (.half .second) none 0) T
        (Function.update (Function.update T (.half .first) none) (.half .second) none) k := by
    simp [Same, OnHeap.Vars.set, Function.update_of_ne hk, Function.update_of_ne hk']
  have hbatches : FloatsIn v T (.batch .first) firstBatch.floats
      ∧ FloatsIn v T (.batch .second) secondBatch.floats := by
    have hcalculator := M.calculator
    rwa [hpc] at hcalculator
  refine ⟨_, h', _, hrun, rfl, H',
    ⟨fun l => (M.bufin l).same (hsame _ (by simp) (by simp)), ?_,
      M.calculations.same (hsame _ (by simp) (by simp)),
      fun l => (M.listener l).same (hsame _ (by simp) (by simp)) (hsame _ (by simp) (by simp)),
      ⟨hbatches.1.same (hsame _ (by simp) (by simp)),
        hbatches.2.same (hsame _ (by simp) (by simp))⟩,
      M.sender.same (hsame _ (by simp) (by simp))⟩, ?_⟩
  · intro l
    cases l <;> simp [FloatsIn, OnHeap.Vars.set, Server.BatchStock.half, SizedBuf.null]
  · simp [blocks, listenerBlocks, stored, OnHeap.Vars.set] at hcount ⊢
    omega

theorem Fits.calculateRes (F : Fits start s v h T) {firstBatch secondBatch copy : SizedBuf}
    (hpc : s.calculator = .calculateRes firstBatch secondBatch)
    (hcopy : copy.floats = (serverCalculations (firstBatch.floats ++ secondBatch.floats)).toList)
    (hfirst : firstBatch.floats.length = 6) (hsecond : secondBatch.floats.length = 7) :
    ∃ v' h' T', calculateRes serverCalculations v h = some (v', h') ∧ v'.out = v.out
      ∧ Fits start { s with
        cs := ⟨copy⟩
        calculator := .waitForSender
        computed := s.computed ++ [(firstBatch.floats, secondBatch.floats)] } v' h' T' := by
  obtain ⟨H, M, hcount⟩ := F
  obtain ⟨hbatch, hbatch'⟩ : FloatsIn v T (.batch .first) firstBatch.floats
      ∧ FloatsIn v T (.batch .second) secondBatch.floats := by
    have hcalculator := M.calculator
    rwa [hpc] at hcalculator
  have hrun := calculateRes_run serverCalculations H hbatch hbatch' hfirst hsecond
  rw [← hcopy] at hrun
  have hlen : copy.floats.length = 4 := by rw [hcopy, List.Vector.toList_length]
  have hsame (k : Place) (hk : k ≠ .calculations) := Same.set (v := v) (T := T) hk
    (some (h.next + 3)) 4 (some (h.next + 3, floatsBlock copy.floats))
  -- the sender keeps the block of the result that it has read
  have H' := ((H.skip 2).push_lost (floatsBlock copy.floats)).push .calculations
    (floatsBlock copy.floats)
  refine ⟨_, _, _, hrun, rfl, H',
    ⟨fun l => (M.bufin l).same (hsame _ (by simp)), fun l => (M.half l).same (hsame _ (by simp)), ?_,
      fun l => (M.listener l).same (hsame _ (by simp)) (hsame _ (by simp)), trivial,
      M.sender.same (hsame _ (by simp))⟩, ?_⟩
  · simp [FloatsIn, OnHeap.Vars.set, hlen]
  · simp [blocks, listenerBlocks, stored, OnHeap.Vars.set] at hcount ⊢
    omega

theorem Fits.readCalcs (F : Fits start s v h T) :
    ∃ T', (readCalcs v).out = v.out
      ∧ Fits start { s with sender := .send s.cs.calculations.floats } (readCalcs v) h T' := by
  obtain ⟨H, M, hcount⟩ := F
  have hsame (k : Place) (hk : k ≠ .calcs) := Same.set (v := v) (T := T) hk
    (v.ptr .calculations) (v.len .calculations) (T .calculations)
  refine ⟨_, rfl, H.share (.inr rfl) (.inl rfl),
    ⟨fun l => (M.bufin l).same (hsame _ (by simp)), fun l => (M.half l).same (hsame _ (by simp)),
      M.calculations.same (hsame _ (by simp)),
      fun l => (M.listener l).same (hsame _ (by simp)) (hsame _ (by simp)),
      M.calculator.same fun l => hsame _ (by simp), ?_⟩, ?_⟩
  · simpa [SenderIn, FloatsIn, ServerMemory.readCalcs, OnHeap.Vars.set] using M.calculations
  · exact hcount

theorem Fits.sendCalcs (F : Fits start s v h T) {calcs : List CFloat} (hpc : s.sender = .send calcs) :
    ∃ v' h' T', sendCalcs v h = some (v', h') ∧ v'.out = v.out ++ [datagramOf calcs]
      ∧ Fits start { s with sender := .signalReady, sent := s.sent ++ [calcs] } v' h' T' := by
  obtain ⟨H, M, hcount⟩ := F
  have hcalcs : FloatsIn v T .calcs calcs := by
    have hsender := M.sender
    rwa [hpc] at hsender
  obtain ⟨v', h', T', hrun, hout, H', hcount', -, -, hsame⟩ := sendFloats_run hcalcs H
    (show Place.reply ≠ .replyPayload by simp) (show Place.reply ≠ .replyBytes by simp) (by simp)
  have hhalf (l : ListenerType) := hsame (.half l) (by simp) (by simp) (by simp)
  refine ⟨{ v' with out := v'.out ++ [datagramOf calcs] }, h', T', ?_, by rw [hout], H',
    ⟨fun l => (M.bufin l).same (hsame _ (by simp) (by simp) (by simp)),
      fun l => (M.half l).same (hhalf l), M.calculations.same (hsame _ (by simp) (by simp) (by simp)),
      fun l => (M.listener l).same (hsame _ (by simp) (by simp) (by simp))
        (hsame _ (by simp) (by simp) (by simp)),
      M.calculator.same fun l => hsame _ (by simp) (by simp) (by simp), trivial⟩, ?_⟩
  · rw [ServerMemory.sendCalcs]
    exact bind_run hrun _
  · simp [blocks, listenerBlocks, stored, (hhalf _).1] at hcount ⊢
    omega

/-- A step that changes nothing of what was sent. -/
theorem Fits.represents (hsent : v.out = s.sent.map datagramOf) (hs : s'.sent = s.sent)
    {x : Prog Block Vars}
    (hx : ∃ v' h' T', x h = some (v', h') ∧ v'.out = v.out ∧ Fits start s' v' h' T') :
    ∃ v' h', x h = some (v', h') ∧ Represents start ⟨s', v', h'⟩ := by
  obtain ⟨v', h', T', hrun, hv', F'⟩ := hx
  exact ⟨v', h', hrun, ⟨T', F'⟩, by rw [hv', hs, hsent]⟩

/-- **Every step** does what the control says. -/
theorem Fits.step (F : Fits start s v h T) (hsent : v.out = s.sent.map datagramOf)
    (hlen : ∀ firstBatch secondBatch, s.calculator = .calculateRes firstBatch secondBatch →
      firstBatch.floats.length = 6 ∧ secondBatch.floats.length = 7)
    (hP : HalfReceived s a) (hm : Server.Move serverCalculations s a s') :
    ∃ v' h', code serverCalculations s v a h = some (v', h') ∧ Represents start ⟨s', v', h'⟩ := by
  have idle {s' : Server.State} {a : Server.Action} (hcode : code serverCalculations s v a = pure v)
      (hs : s'.sent = s.sent) (F' : Fits start s' v h T) :
      ∃ v' h', code serverCalculations s v a h = some (v', h') ∧ Represents start ⟨s', v', h'⟩ :=
    Fits.represents hsent hs ⟨v, h, T, by rw [hcode]; rfl, rfl, F'⟩
  have move {s' : Server.State} {a : Server.Action} {x : Prog Block Vars}
      (hcode : code serverCalculations s v a = x) (hs : s'.sent = s.sent)
      (hx : ∃ v' h' T', x h = some (v', h') ∧ v'.out = v.out ∧ Fits start s' v' h' T') :
      ∃ v' h', code serverCalculations s v a h = some (v', h') ∧ Represents start ⟨s', v', h'⟩ := by
    rw [hcode]
    exact Fits.represents hsent hs hx
  cases hm with
  | waitFirst hpc hflag =>
      exact idle (by simp [code, hpc]) rfl (F.idle rfl rfl rfl (fun _ => id) (fun _ => trivial) id)
  | waitSecond hpc hflag =>
      exact idle (by simp [code, hpc]) rfl (F.idle rfl rfl rfl (fun _ => id) (fun _ => trivial) id)
  | getFirst hpc => exact move (by simp [code, hpc]) rfl F.getFirst
  | getSecond firstBatch hpc => exact move (by simp [code, hpc]) rfl (F.getSecond hpc)
  | cleanStock firstBatch secondBatch hpc =>
      exact move (by simp [code, hpc]) rfl (F.cleanStock hpc)
  | signalFirst firstBatch secondBatch hpc =>
      refine idle (by simp [code, hpc]) rfl (F.idle rfl rfl rfl (fun _ => id) ?_ id)
      rw [hpc]
      exact id
  | signalSecond firstBatch secondBatch hpc =>
      refine idle (by simp [code, hpc]) rfl (F.idle rfl rfl rfl (fun _ => id) ?_ id)
      rw [hpc]
      exact id
  | calculateRes firstBatch secondBatch copy hpc hcopy =>
      obtain ⟨hfirst, hsecond⟩ := hlen _ _ hpc
      exact move (by simp [code, hpc]) rfl (F.calculateRes hpc hcopy hfirst hsecond)
  | waitForSender hpc hflag =>
      exact idle (by simp [code, hpc]) rfl (F.idle rfl rfl rfl (fun _ => id) (fun _ => trivial) id)
  | signalCalculated hpc =>
      exact idle (by simp [code, hpc]) rfl (F.idle rfl rfl rfl (fun _ => id) (fun _ => trivial) id)
  | waitForCalculator hpc hflag =>
      exact idle (by simp [code, hpc]) rfl (F.idle rfl rfl rfl (fun _ => id) id (fun _ => trivial))
  | readCalcs hpc =>
      obtain ⟨T', hv, F'⟩ := F.readCalcs
      have hcode : code serverCalculations s v .sender = pure (ServerMemory.readCalcs v) := by
        simp [code, hpc]
      exact move hcode rfl ⟨_, h, T', rfl, hv, F'⟩
  | send calcs hpc =>
      obtain ⟨v', h', T', hcode, hv, F'⟩ := F.sendCalcs hpc
      refine ⟨v', h', by simpa [code, hpc] using hcode, ⟨T', F'⟩, ?_⟩
      show v'.out = (s.sent ++ [calcs]).map datagramOf
      rw [hv, hsent, List.map_append, List.map_singleton]
  | signalReady hpc =>
      exact idle (by simp [code, hpc]) rfl (F.idle rfl rfl rfl (fun _ => id) id (fun _ => trivial))
  | receive l d pack hpc hpack =>
      have hd := (hP l d rfl).1
      rw [bytesToPack_recvfrom _ hd.selfContained] at hpack
      exact move rfl rfl (F.receive _ hpc hd hpack)
  | waitUntilCalcReads l pack hpc hflag =>
      refine idle (by simp [code, hpc]) rfl (F.idle rfl rfl ?_ ?_ id id)
      · cases l <;> simp [blocks, listenerBlocks, stored, hpc]
      · intro l' hl'
        by_cases hl : l' = l
        · subst hl
          rw [hpc] at hl'
          simpa [ListenerIn] using hl'
        · simpa [hl] using hl'
  | store l pack copy bs hpc hcopy hbs =>
      exact move (by simp [code, hpc]) rfl (F.storeBatch hpc hcopy hbs)
  | listenerSignal l pack hpc =>
      refine idle (by simp [code, hpc]) rfl (F.idle rfl rfl ?_ ?_ id id)
      · cases l <;> simp [blocks, listenerBlocks, stored, hpc]
      · intro l' hl'
        by_cases hl : l' = l
        · subst hl
          simp [ListenerIn]
        · simpa [hl] using hl'

theorem keeps (start : Heap Block) (bufin : ListenerType → Buf) :
    HeapMachine.Keeps (Server.step serverCalculations) (code serverCalculations) HalfReceived
      (init start bufin).control (Represents start) := by
  rintro as ⟨s, v, h⟩ a s' hrun ⟨⟨T, F⟩, hsent⟩ hP hstep
  exact F.step hsent (fun _ _ hpc => length_batches hrun hpc) hP (Server.step_move hstep)

theorem represents_init (start : Heap Block) (bufin : ListenerType → Buf) :
    Represents start (init start bufin) := by
  have hsecond := Heap.block_push_self (start.push (chars.array (written [] MAXBUF)))
    (chars.array (written [] MAXBUF))
  refine ⟨⟨fun
    | .bufin .first => some (start.next, chars.array (written [] MAXBUF))
    | .bufin .second => some (start.next + 1, chars.array (written [] MAXBUF))
    | _ => none, ⟨?_, ?_⟩, ⟨?_, ?_, ?_, ?_, trivial, trivial⟩, ?_⟩, rfl⟩
  · rintro k p b hk
    split at hk
    · cases hk
      exact Heap.block_push (Heap.block_push_self ..)
    · cases hk
      exact hsecond
    · cases hk
  · -- the two buffers are different blocks
    rintro k k' p b b' hk hk'
    split at hk
    · cases hk
      split at hk'
      · exact .inl rfl
      · simp at hk'
      · cases hk'
    · cases hk
      split at hk'
      · simp at hk'
      · exact .inl rfl
      · cases hk'
    · cases hk
  · rintro (_ | _)
    · exact ⟨_, _, rfl, rfl, length_written (Nat.zero_le _)⟩
    · exact ⟨_, _, rfl, rfl, length_written (Nat.zero_le _)⟩
  · rintro (_ | _) <;> exact ⟨rfl, rfl⟩
  · exact ⟨rfl, rfl⟩
  · exact fun l => trivial
  · simp [init, blocks, listenerBlocks, stored, Server.init]

end Keeps

/-! ## Runs -/

section Runs

variable {serverCalculations : List CFloat → List.Vector CFloat 4} {start : Heap Block}
  {bufin : ListenerType → Buf} {as : List Server.Action} {s : Server.State} {m : State}

/-- A thread that cannot move does not touch the memory. -/
theorem code_of_blocked (hrun : Run (Server.step serverCalculations) HalfReceived
    (Server.init bufin) as s) {a : Server.Action} (ha : ∀ l d, a ≠ .receive l d)
    (hblocked : Server.step serverCalculations s a = none) (v : Vars) :
    code serverCalculations s v a = pure v := by
  cases a with
  | calculator =>
      rcases Server.calculator_blocked hblocked with ⟨hpc, -⟩ | ⟨hpc, -⟩ | ⟨hpc, -⟩ <;>
        simp [code, hpc]
  | sender =>
      obtain ⟨hpc, -⟩ := Server.sender_blocked hblocked
      simp [code, hpc]
  | listener l =>
      rcases Server.listener_blocked hblocked with hpc | ⟨pack, hpc, -⟩ | ⟨pack, hpc, hcopy⟩
      · simp [code, hpc]
      · simp [code, hpc]
      · exact absurd hcopy (copyOfPacket_ne_none
          (Server.type_of_inHand (wellFormed_run hrun) l pack (by simp [hpc])))
  | receive l d => exact absurd rfl (ha l d)

/-- **No undefined behaviour.**  In every interleaving in which the two ports receive halves of
requests, whatever the buffers hold at first, what any thread executes next has a result. -/
theorem server_no_fault (hrun : Run (step serverCalculations) (fun m a => HalfReceived m.control a)
    (init start bufin) as m) {a : Server.Action} (ha : HalfReceived m.control a)
    (hreceive : ∀ l d, a = .receive l d → m.control.listener l = .receive) :
    code serverCalculations m.control m.vars a m.heap ≠ none := by
  by_cases hcontrol : Server.step serverCalculations m.control a = none
  · have hthread : ∀ l d, a ≠ .receive l d := by
      rintro l d rfl
      exact Server.receive_enabled (hreceive l d rfl) (ha l d rfl).1 hcontrol
    rw [code_of_blocked (HeapMachine.control_run hrun) hthread hcontrol]
    exact Option.some_ne_none _
  · exact HeapMachine.Run.safe (keeps start bufin) (represents_init start bufin) hrun ha hcontrol

/-- One request, computed on, whose result the sender has read. -/
def requestSchedule : List Server.Action :=
  Server.feed 1 ++ List.replicate 10 .calculator ++ List.replicate 2 .sender

theorem requestSchedule_run : ∃ m, Run (step Server.firstFour)
    (fun m a => HalfReceived m.control a) (init Heap.empty fun _ _ => 0) requestSchedule m
      ∧ m.control.computed = [(List.replicate 6 1, List.replicate 7 1)] := by
  obtain ⟨s, hrun, hcomputed⟩ := Option.map_eq_some_iff.mp (by decide +kernel :
    (Transition.run (Server.step Server.firstFour) (Server.init fun _ _ => 0) requestSchedule).map
      (fun s => s.computed) = some [(List.replicate 6 1, List.replicate 7 1)])
  have h : Run (Server.step Server.firstFour) HalfReceived (Server.init fun _ _ => 0)
      requestSchedule s := by
    apply Run.of_run hrun
    rintro _ a ha l d rfl
    simp only [requestSchedule, List.mem_append, List.mem_replicate, reduceCtorEq, and_false,
      or_false] at ha
    refine ⟨Server.wellFormed_feed ha, ?_⟩
    simp only [Server.feed, List.mem_append, List.mem_cons, List.mem_replicate,
      Server.Action.receive.injEq, reduceCtorEq, and_false, or_false] at ha
    rcases ha with ⟨rfl, rfl⟩ | ⟨rfl, rfl⟩ <;>
      simp [floatsOf_datagramOf, halfLen]
  obtain ⟨m, hm, rfl⟩ := HeapMachine.Run.lift (keeps Heap.empty fun _ _ => 0)
    (represents_init ..) h
  exact ⟨m, hm, hcomputed⟩

/-- The send of a result has a result. -/
theorem server_no_fault_send : ∃ m, Run (step Server.firstFour) (fun m a => HalfReceived m.control a)
    (init Heap.empty fun _ _ => 0) requestSchedule m
      ∧ code Server.firstFour m.control m.vars .sender m.heap ≠ none := by
  obtain ⟨m, hm, -⟩ := requestSchedule_run
  refine ⟨m, hm, server_no_fault hm ?_ ?_⟩
  · intro l d ha
    cases ha
  · intro l d ha
    cases ha

/-- **The memory refines the control.**  The schedules of the server with its memory are those
of the server without, to the same states of the control; what the first has sent are the bytes
of the results that the second has sent, and the blocks that are live beyond those of the start
are those that belong to its history. -/
theorem server_memory_refines :
    Run (Server.step serverCalculations) HalfReceived (Server.init bufin) as s ↔
      ∃ m, Run (step serverCalculations) (fun m a => HalfReceived m.control a) (init start bufin) as m
        ∧ m.control = s ∧ m.vars.out = s.sent.map datagramOf
        ∧ m.heap.count = start.count + blocks s m.vars := by
  constructor
  · intro hrun
    obtain ⟨m, hm, rfl⟩ := HeapMachine.Run.lift (keeps start bufin) (represents_init start bufin) hrun
    obtain ⟨⟨T, F⟩, hsent⟩ := HeapMachine.Run.related (keeps start bufin) (represents_init start bufin) hm
    exact ⟨m, hm, rfl, hsent, F.count⟩
  · rintro ⟨m, hm, rfl, -, -⟩
    exact HeapMachine.control_run hm

/-- How far listener `l` and the reads of its half are ahead of the computations. -/
theorem ahead (hrun : Run (Server.step serverCalculations) HalfReceived (Server.init bufin) as s)
    (l : ListenerType) :
    (s.computed.length ≤ (s.read l).length ∧ (s.read l).length ≤ s.computed.length + 1)
      ∧ ((s.read l).length ≤ stored s l ∧ stored s l ≤ (s.read l).length + 1)
      ∧ (stored s l ≤ (s.received l).length ∧ (s.received l).length ≤ stored s l + 1) := by
  have hwf := wellFormed_run hrun
  have hlaw := (Server.inv_run hwf).half l
  have hputs : (s.handed l).length
      = (s.read l).length + (Server.halfChannel l s).live.toNat := hlaw.balanced.length_puts
  have hreceived := congrArg List.length (Server.received_eq hwf l)
  have hread := congrArg List.length (Server.read_eq hrun l)
  simp only [List.length_map, List.length_append] at hreceived hread
  have hcalculator : (s.calculator.inHand l).length ≤ 1 := by
    cases s.calculator <;> cases l <;> simp
  have hlive := Bool.toNat_le (Server.halfChannel l s).live
  refine ⟨by omega, ?_⟩
  cases hpc : s.listener l with
  | signalReady pack =>
      have hproducing : (Server.halfChannel l s).producing = true := by
        simp [Server.halfChannel, hpc]
      rw [Handshake.not_live_of_producing hlaw.tokens_eq hproducing, Bool.toNat_false] at hputs
      simp only [hpc, Server.ListenerPc.inHand, List.length_singleton] at hreceived
      simp only [stored, hpc]
      omega
  | receive =>
      simp only [hpc, Server.ListenerPc.inHand, List.length_nil] at hreceived
      simp only [stored, hpc]
      omega
  | waitUntilCalcReads pack =>
      simp only [hpc, Server.ListenerPc.inHand, List.length_singleton] at hreceived
      simp only [stored, hpc]
      omega
  | store pack =>
      simp only [hpc, Server.ListenerPc.inHand, List.length_singleton] at hreceived
      simp only [stored, hpc]
      omega

/-- What is live in a state of the server. -/
theorem Represents.count_bounds (h : Represents start m) (hrun : Run
    (Server.step serverCalculations) HalfReceived (Server.init bufin) as m.control) :
    start.count + 2 + 12 * m.control.computed.length + 3 * m.control.sent.length ≤ m.heap.count
      ∧ m.heap.count
        ≤ start.count + 28 + 12 * m.control.computed.length + 3 * m.control.sent.length := by
  obtain ⟨⟨T, F⟩, -⟩ := h
  have hcount := F.count
  have hfirst := ahead hrun .first
  have hsecond := ahead hrun .second
  have hhalf (l : ListenerType) := Bool.toNat_le (m.vars.ptr (.half l)).isSome
  have := hhalf .first
  have := hhalf .second
  simp only [blocks, listenerBlocks] at hcount
  omega

/-- **The memory grows.**  Of the blocks for each request that was computed on, twelve are never
released, and three for each result that was sent.  What is live besides is what was live before
the loops started, and at most twenty-eight blocks. -/
theorem server_leaks (hrun : Run (step serverCalculations) (fun m a => HalfReceived m.control a)
    (init start bufin) as m) :
    start.count + 2 + 12 * m.control.computed.length + 3 * m.control.sent.length ≤ m.heap.count
      ∧ m.heap.count
        ≤ start.count + 28 + 12 * m.control.computed.length + 3 * m.control.sent.length := by
  have hrepresents := HeapMachine.Run.related (keeps start bufin) (represents_init start bufin) hrun
  exact hrepresents.count_bounds (HeapMachine.control_run hrun)

/-- After one computation, with nothing on the heap of the start. -/
theorem server_leaks_one_request : ∃ m, Run (step Server.firstFour)
    (fun m a => HalfReceived m.control a) (init Heap.empty fun _ _ => 0) requestSchedule m
      ∧ 14 + 3 * m.control.sent.length ≤ m.heap.count
      ∧ m.heap.count ≤ 40 + 3 * m.control.sent.length := by
  obtain ⟨m, hm, hcomputed⟩ := requestSchedule_run
  have hleaks := server_leaks hm
  rw [hcomputed, List.length_singleton, Heap.count_empty] at hleaks
  exact ⟨m, hm, hleaks⟩

end Runs

end ServerMemory
