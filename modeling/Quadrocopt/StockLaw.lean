/-
# What a stock returns

A stock keeps one batch in each of its places, `add` puts a batch there, `get` copies it out
and says through an argument how long it is, and `clean` empties every place.  The law that
a stock is to obey over a sequence of such operations is stated once, for any places.

Three stocks are held against it: the client's `BatchStock`, the server's, with its two
halves, and the server's `CalculationsStock`.  All three keep what is added; only the
server's `BatchStock` writes the length.  The other two obey the law exactly where the
caller knows the length already (`stocks_obey_iff`).
-/
import Quadrocopt.Stock

/-! ## The law -/

/-- A stock with the places `κ`: `get` takes what is in the length argument before, and
returns the copy, what is in that argument afterwards, and the stock. -/
structure Stock (σ κ : Type*) where
  start : σ
  held : σ → κ → List CFloat
  add : σ → κ → List CFloat → ℕ → Option σ
  get : σ → κ → ℕ → (List CFloat × ℕ) × σ
  clean : σ → σ

namespace Stock

variable {σ κ : Type*}

/-- The operations; a batch that is added has the floats that are asked for. -/
inductive Op (κ : Type*) where
  | add (place : κ) (batch : List CFloat) (batchLen : ℕ) (h : batchLen ≤ batch.length)
  | get (place : κ) (batchLen : ℕ)
  | clean

variable [DecidableEq κ]

/-- The batches added most recently since the last clean, after one more operation. -/
def Op.contents (c : κ → List CFloat) : Op κ → κ → List CFloat
  | .add place batch batchLen _ => Function.update c place (batch.take batchLen)
  | .get _ _ => c
  | .clean => fun _ => []

/-- One operation is as it is to be: an `add` succeeds, and a `get` returns the batch and its
length and changes nothing. -/
def Right (S : Stock σ κ) (s : σ) (c : κ → List CFloat) : Op κ → σ → Prop
  | .add place batch batchLen _, s' => S.add s place batch batchLen = some s'
  | .get place batchLen, s' => S.get s place batchLen = ((c place, (c place).length), s') ∧ s' = s
  | .clean, s' => S.clean s = s'

/-- Over a sequence of operations every one is right, and the stock holds in every place
what was added there, and nothing else. -/
def Obeys (S : Stock σ κ) (s : σ) (c : κ → List CFloat) : List (Op κ) → Prop
  | [] => S.held s = c
  | op :: ops => S.held s = c ∧ ∃ s', S.Right s c op s' ∧ S.Obeys s' (op.contents c) ops

/-- Every `get` leaves the length of the batch in its argument, if it leaves there the value
`out` of what was in it and of that length. -/
def LengthsRight (out : ℕ → ℕ → ℕ) (c : κ → List CFloat) : List (Op κ) → Prop
  | [] => True
  | op@(.get place batchLen) :: ops =>
      out batchLen (c place).length = (c place).length ∧ LengthsRight out (op.contents c) ops
  | op :: ops => LengthsRight out (op.contents c) ops

/-- Every `get` is called with the length of the batch in its argument already. -/
def LengthsKnown (c : κ → List CFloat) (ops : List (Op κ)) : Prop :=
  LengthsRight (fun batchLen _ => batchLen) c ops

/-- A stock that keeps what is added. -/
structure Keeps (S : Stock σ κ) : Prop where
  add (s : σ) (place : κ) (batch : List CFloat) (batchLen : ℕ) (h : batchLen ≤ batch.length) :
    ∃ s', S.add s place batch batchLen = some s'
      ∧ S.held s' = Function.update (S.held s) place (batch.take batchLen)
  copied (s : σ) (place : κ) (batchLen : ℕ) : (S.get s place batchLen).1.1 = S.held s place
  unchanged (s : σ) (place : κ) (batchLen : ℕ) : (S.get s place batchLen).2 = s
  clean (s : σ) : S.held (S.clean s) = fun _ => []

variable {S : Stock σ κ}

/-- A `get` of a stock that keeps what is added is right where the length is. -/
theorem Keeps.right_get_iff (hkeeps : S.Keeps) (s s' : σ) (place : κ) (batchLen : ℕ) :
    S.Right s (S.held s) (.get place batchLen) s'
      ↔ (S.get s place batchLen).1.2 = (S.held s place).length ∧ s' = s := by
  have hcopied := hkeeps.copied s place batchLen
  have hunchanged := hkeeps.unchanged s place batchLen
  rw [Right, Prod.ext_iff, Prod.ext_iff, hcopied, hunchanged]
  constructor
  · rintro ⟨⟨⟨-, hlength⟩, -⟩, rfl⟩
    exact ⟨hlength, rfl⟩
  · rintro ⟨hlength, rfl⟩
    exact ⟨⟨⟨rfl, hlength⟩, rfl⟩, rfl⟩

/-- **The law, operation by operation.**  A stock that keeps what is added obeys the law
exactly where the lengths that it leaves behind are right. -/
theorem Keeps.obeys_iff (hkeeps : S.Keeps) {out : ℕ → ℕ → ℕ}
    (hout : ∀ s place batchLen,
      (S.get s place batchLen).1.2 = out batchLen (S.held s place).length)
    (s : σ) (ops : List (Op κ)) : S.Obeys s (S.held s) ops ↔ LengthsRight out (S.held s) ops := by
  induction ops generalizing s with
  | nil => exact iff_of_true rfl trivial
  | cons op ops ih =>
    rw [Obeys, and_iff_right rfl]
    cases op with
    | add place batch batchLen h =>
      obtain ⟨s', hadd, hheld⟩ := hkeeps.add s place batch batchLen h
      rw [LengthsRight, Op.contents, ← hheld, ← ih s']
      · constructor
        · rintro ⟨s'', hright, hobeys⟩
          obtain rfl : s' = s'' := Option.some_inj.mp (hadd.symm.trans hright)
          exact hobeys
        · intro hobeys
          exact ⟨s', hadd, hobeys⟩
      · rintro place' batchLen' ⟨⟩
    | get place batchLen =>
      rw [LengthsRight, Op.contents, ← ih s, ← hout]
      constructor
      · rintro ⟨s', hright, hobeys⟩
        obtain ⟨hlength, rfl⟩ := (hkeeps.right_get_iff s s' place batchLen).mp hright
        exact ⟨hlength, hobeys⟩
      · rintro ⟨hlength, hobeys⟩
        exact ⟨s, (hkeeps.right_get_iff s s place batchLen).mpr ⟨hlength, rfl⟩, hobeys⟩
    | clean =>
      rw [LengthsRight, Op.contents, ← hkeeps.clean s, ← ih (S.clean s)]
      · constructor
        · rintro ⟨s', rfl, hobeys⟩
          exact hobeys
        · intro hobeys
          exact ⟨S.clean s, rfl, hobeys⟩
      · rintro place' batchLen' ⟨⟩

/-- A stock that always writes the length has it right. -/
theorem lengthsRight_of_writes (c : κ → List CFloat) (ops : List (Op κ)) :
    LengthsRight (fun _ len => len) c ops := by
  induction ops generalizing c with
  | nil => trivial
  | cons op ops ih =>
    cases op with
    | add place batch batchLen h => exact ih _
    | get place batchLen => exact ⟨rfl, ih _⟩
    | clean => exact ih _

end Stock

/-! ## The stocks of the programs -/

/-- The client's `BatchStock`. -/
def Client.batchStock : Stock Client.BatchStock Unit where
  start := Client.initializeBatchStock
  held bs _ := bs.batch.floats
  add bs _ batch batchLen := Client.addToBatchStock bs batch batchLen
  get bs _ batchLen := ((Client.getBatchFromStock bs, batchLen), bs)
  clean bs := Client.cleanBatchStock bs

/-- The server's `BatchStock`, with its halves. -/
def Server.batchStock : Stock Server.BatchStock Server.ListenerType where
  start := Server.initializeBatchStock
  held bs l := (bs.half l).floats
  add bs l batch batchLen := match l with
    | .first => Server.addFirstStockToBatch bs batch batchLen
    | .second => Server.addSecondStockToBatch bs batch batchLen
  get bs l _ :=
    let copy := match l with
      | .first => Server.getFirstStockFromBatch bs
      | .second => Server.getSecondStockFromBatch bs
    ((copy.floats, copy.len), bs)
  clean bs := Server.cleanBatchStock bs

/-- The server's `CalculationsStock`. -/
def Server.calculationsStock : Stock Server.CalculationsStock Unit where
  start := Server.initializeCalculationsStock
  held cs _ := cs.calculations.floats
  add cs _ calcs calcsLen := Server.addToCalculationsStock cs calcs calcsLen
  get cs _ calcsLen := (Server.getCalculationsFromStock cs calcsLen, cs)
  clean cs := Server.cleanCalculationsStock cs

/-- An `add` that keeps the copy it makes, and leaves the other places alone. -/
theorem Stock.add_of_copy {σ κ : Type*} [DecidableEq κ] {S : Stock σ κ} {s : σ} {place : κ}
    {batch : List CFloat} {batchLen : ℕ} (keep : SizedBuf → σ)
    (hadd : S.add s place batch batchLen = (copyArrOfFloats batch batchLen).map keep)
    (hkeep : ∀ copy, S.held (keep copy) = Function.update (S.held s) place copy.floats)
    (h : batchLen ≤ batch.length) :
    ∃ s', S.add s place batch batchLen = some s'
      ∧ S.held s' = Function.update (S.held s) place (batch.take batchLen) := by
  have hcopy : copyArrOfFloats batch batchLen = some ⟨batch.take batchLen, batchLen, _⟩ :=
    dif_pos h
  exact ⟨_, hadd.trans (congrArg (Option.map keep) hcopy), hkeep _⟩

theorem Client.keeps_batchStock : Client.batchStock.Keeps where
  add bs place batch batchLen h := by
    refine Stock.add_of_copy (fun copy => ⟨copy⟩) rfl (fun copy => ?_) h
    funext place'
    rw [Function.update_self]
    rfl
  copied bs place batchLen := congrArg SizedBuf.floats (SizedBuf.copy_eq bs.batch)
  unchanged _ _ _ := rfl
  clean _ := rfl

theorem Server.keeps_calculationsStock : Server.calculationsStock.Keeps where
  add cs place calcs calcsLen h := by
    refine Stock.add_of_copy (fun copy => ⟨copy⟩) rfl (fun copy => ?_) h
    funext place'
    rw [Function.update_self]
    rfl
  copied cs place calcsLen := congrArg SizedBuf.floats (SizedBuf.copy_eq cs.calculations)
  unchanged _ _ _ := rfl
  clean _ := rfl

/-- The two halves do not disturb each other. -/
theorem Server.keeps_batchStock : Server.batchStock.Keeps where
  add bs l batch batchLen h := by
    cases l with
    | first =>
      refine Stock.add_of_copy (fun copy => { bs with firstBatch := copy }) rfl
        (fun copy => ?_) h
      funext l'
      cases l' with
      | first => rfl
      | second => rfl
    | second =>
      refine Stock.add_of_copy (fun copy => { bs with secondBatch := copy }) rfl
        (fun copy => ?_) h
      funext l'
      cases l' with
      | first => rfl
      | second => rfl
  copied bs l batchLen := by
    cases l with
    | first => exact congrArg SizedBuf.floats (SizedBuf.copy_eq bs.firstBatch)
    | second => exact congrArg SizedBuf.floats (SizedBuf.copy_eq bs.secondBatch)
  unchanged _ _ _ := rfl
  clean bs := by
    funext l
    cases l with
    | first => rfl
    | second => rfl

/-- The server's halves write the length. -/
theorem Server.get_batchStock (bs : Server.BatchStock) (l : Server.ListenerType) (batchLen : ℕ) :
    (Server.batchStock.get bs l batchLen).1.2 = (Server.batchStock.held bs l).length := by
  cases l with
  | first => exact (congrArg SizedBuf.len (SizedBuf.copy_eq bs.firstBatch)).trans bs.firstBatch.len_eq
  | second =>
    exact (congrArg SizedBuf.len (SizedBuf.copy_eq bs.secondBatch)).trans bs.secondBatch.len_eq

open Stock

/-- **Which stocks obey the law.**  From an initialised stock: the server's `BatchStock` over
every sequence of operations; the client's, and the server's `CalculationsStock`, over
those whose every `get` is called with the length of the batch in its argument already. -/
theorem stocks_obey_iff (ops : List (Op Unit)) (ops' : List (Op Server.ListenerType)) :
    (Obeys Client.batchStock Client.batchStock.start (fun _ => []) ops
        ↔ LengthsKnown (fun _ => []) ops)
      ∧ (Obeys Server.calculationsStock Server.calculationsStock.start (fun _ => []) ops
        ↔ LengthsKnown (fun _ => []) ops)
      ∧ Obeys Server.batchStock Server.batchStock.start (fun _ => []) ops' := by
  have hstart : Server.batchStock.held Server.batchStock.start = fun _ => [] := by
    funext l
    cases l with
    | first => rfl
    | second => rfl
  refine ⟨?_, ?_, ?_⟩
  · exact Client.keeps_batchStock.obeys_iff (fun _ _ _ => rfl) Client.batchStock.start ops
  · exact Server.keeps_calculationsStock.obeys_iff (fun _ _ _ => rfl)
      Server.calculationsStock.start ops
  · rw [← hstart]
    exact (Server.keeps_batchStock.obeys_iff (fun bs l n => Server.get_batchStock bs l n)
      Server.batchStock.start ops').mpr (lengthsRight_of_writes _ ops')

/-- A caller with `0` in the argument, as the client's global holds at first: a batch of one
float is reported with the length `0`. -/
theorem not_obeys_one_float :
    let ops : List (Op Unit) := [.add () [0] 1 (by decide), .get () 0]
    ¬Obeys Client.batchStock Client.batchStock.start (fun _ => []) ops
      ∧ ¬Obeys Server.calculationsStock Server.calculationsStock.start (fun _ => []) ops := by
  intro ops
  have hunknown : ¬LengthsKnown (fun _ => []) ops := by
    rintro ⟨hlength, -⟩
    cases hlength
  constructor
  · intro h
    exact hunknown ((Client.keeps_batchStock.obeys_iff (fun _ _ _ => rfl)
      Client.batchStock.start ops).mp h)
  · intro h
    exact hunknown ((Server.keeps_calculationsStock.obeys_iff (fun _ _ _ => rfl)
      Server.calculationsStock.start ops).mp h)
