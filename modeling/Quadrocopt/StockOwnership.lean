/-
# Who releases the blocks of a stock

The blocks that the stocks of both programs allocate for what is added, with allocation and
release made explicit.  The operations of the four stocks are written separately and differ
in two habits: only `add_to_batch` of the server releases the block that it replaces, and
only `clean_sender_stock` keeps the pointers to the blocks that it releases.

So the server's `BatchStock` owns its blocks over any run; the client's `BatchStock` and the
`CalculationsStock` lose a block where something is added twice without a cleaning; and the
client's `SenderStock` does so as well, and releases a block twice where it is cleaned twice
with no addition to a half in between (`stocks_sound_iff`).
-/
import Quadrocopt.OwnedBlocks
import Quadrocopt.Stock

namespace Ownership

open OwnedBlocks

/-! ## The client's stocks -/

namespace Client

/-- The two halves of a request. -/
inductive Half where
  | first
  | second
  deriving DecidableEq

/-- `add_to_batch_stock`. -/
def addToBatchStock (batchLen : ℕ) (bs : Owner Unit) : Option (Owner Unit) :=
  some (store () batchLen bs)

/-- `get_batch_from_stock`. -/
def getBatchFromStock (bs : Owner Unit) : Option (Owner Unit) := read () bs

/-- `clean_batch_stock`. -/
def cleanBatchStock (bs : Owner Unit) : Option (Owner Unit) := clear true () bs

/-- `free_batch_stock`. -/
def freeBatchStock (bs : Owner Unit) : Option (Owner Unit) := release () bs

/-- `BatchStock`. -/
def batchStock : Operations Unit where
  add _ := addToBatchStock
  get _ := getBatchFromStock
  clean := cleanBatchStock
  free := freeBatchStock

/-- `add_first_batch_to_sender_stock`. -/
def addFirstBatchToSenderStock (batchLen : ℕ) (s : Owner Half) : Option (Owner Half) :=
  some (store .first batchLen s)

/-- `add_second_batch_to_sender_stock`. -/
def addSecondBatchToSenderStock (batchLen : ℕ) (s : Owner Half) : Option (Owner Half) :=
  some (store .second batchLen s)

/-- The copy of a half that `fetch_batches` of the sender makes. -/
def fetchBatch (half : Half) (s : Owner Half) : Option (Owner Half) := read half s

/-- `clean_sender_stock`. -/
def cleanSenderStock (s : Owner Half) : Option (Owner Half) := do
  let s ← clear false .first s
  clear false .second s

/-- `free_sender_stock`. -/
def freeSenderStock (s : Owner Half) : Option (Owner Half) := cleanSenderStock s

/-- `SenderStock`. -/
def senderStock : Operations Half where
  add
    | .first => addFirstBatchToSenderStock
    | .second => addSecondBatchToSenderStock
  get := fetchBatch
  clean := cleanSenderStock
  free := freeSenderStock

end Client

/-! ## The server's stocks -/

namespace Server

/-- `add_to_batch`, on the half of the given listener. -/
def addToBatch (l : Server.ListenerType) (batchLen : ℕ) (bs : Owner Server.ListenerType) :
    Option (Owner Server.ListenerType) := replace l batchLen bs

/-- `add_first_stock_to_batch`. -/
def addFirstStockToBatch (batchLen : ℕ) (bs : Owner Server.ListenerType) :
    Option (Owner Server.ListenerType) := addToBatch .first batchLen bs

/-- `add_second_stock_to_batch`. -/
def addSecondStockToBatch (batchLen : ℕ) (bs : Owner Server.ListenerType) :
    Option (Owner Server.ListenerType) := addToBatch .second batchLen bs

/-- `get_first_stock_from_batch`. -/
def getFirstStockFromBatch (bs : Owner Server.ListenerType) :
    Option (Owner Server.ListenerType) := read .first bs

/-- `get_second_stock_from_batch`. -/
def getSecondStockFromBatch (bs : Owner Server.ListenerType) :
    Option (Owner Server.ListenerType) := read .second bs

/-- `clean_batch_stock`. -/
def cleanBatchStock (bs : Owner Server.ListenerType) : Option (Owner Server.ListenerType) := do
  let bs ← clear true .first bs
  clear true .second bs

/-- `free_batch_stock`. -/
def freeBatchStock (bs : Owner Server.ListenerType) : Option (Owner Server.ListenerType) := do
  let bs ← release .first bs
  release .second bs

/-- `BatchStock`. -/
def batchStock : Operations Server.ListenerType where
  add
    | .first => addFirstStockToBatch
    | .second => addSecondStockToBatch
  get
    | .first => getFirstStockFromBatch
    | .second => getSecondStockFromBatch
  clean := cleanBatchStock
  free := freeBatchStock

/-- `add_to_calculations_stock`. -/
def addToCalculationsStock (calcsLen : ℕ) (cs : Owner Unit) : Option (Owner Unit) :=
  some (store () calcsLen cs)

/-- `get_calculations_from_stock`. -/
def getCalculationsFromStock (cs : Owner Unit) : Option (Owner Unit) := read () cs

/-- `clean_calculations_stock`. -/
def cleanCalculationsStock (cs : Owner Unit) : Option (Owner Unit) := clear true () cs

/-- `free_calculations_stock`. -/
def freeCalculationsStock (cs : Owner Unit) : Option (Owner Unit) := release () cs

/-- `CalculationsStock`. -/
def calculationsStock : Operations Unit where
  add _ := addToCalculationsStock
  get _ := getCalculationsFromStock
  clean := cleanCalculationsStock
  free := freeCalculationsStock

end Server

/-! ## Their habits -/

section Places

variable {κ : Type*} (act : κ → Owner κ → Option (Owner κ))

/-- Over one place it is the act at that place. -/
theorem forPlaces_one (k : κ) (s : Owner κ) : forPlaces act [k] s = act k s := by
  cases h : act k s with
  | none => simp [forPlaces, h]
  | some s' => simp [forPlaces, h]

/-- Over two places the second one follows on the first. -/
theorem forPlaces_two (k j : κ) (s : Owner κ) :
    forPlaces act [k, j] s = (act k s).bind (act j) := by
  cases h : act k s with
  | none => simp [forPlaces, h]
  | some s' =>
    rw [forPlaces, h, Option.bind_some, Option.bind_some]
    exact forPlaces_one act j s'

end Places

/-- The client's batch stock has one place, which is not released before it is overwritten. -/
theorem Client.follows_batchStock : Client.batchStock.Follows false true [()] where
  nodup := by decide
  all _ := List.mem_singleton.mpr rfl
  add _ _ _ := rfl
  get _ _ := rfl
  clean s := (forPlaces_one (clear true) () s).symm
  free := .inl fun s => (forPlaces_one release () s).symm

/-- The stock of the sender has two, and its cleaning and its release forget them both. -/
theorem Client.follows_senderStock :
    Client.senderStock.Follows false false [.first, .second] where
  nodup := by decide
  all half := by cases half <;> simp
  add half _ _ := by cases half <;> rfl
  get _ _ := rfl
  clean s := (forPlaces_two (clear false) Half.first .second s).symm
  free := .inr fun s => (forPlaces_two (clear false) Half.first .second s).symm

/-- The server's batch stock releases a half before it is overwritten. -/
theorem Server.follows_batchStock : Server.batchStock.Follows true true [.first, .second] where
  nodup := by decide
  all l := by cases l <;> simp
  add l _ _ := by cases l <;> rfl
  get l _ := by cases l <;> rfl
  clean s := (forPlaces_two (clear true) Server.ListenerType.first .second s).symm
  free := .inl fun s => (forPlaces_two release Server.ListenerType.first .second s).symm

theorem Server.follows_calculationsStock :
    Server.calculationsStock.Follows false true [()] where
  nodup := by decide
  all _ := List.mem_singleton.mpr rfl
  add _ _ _ := rfl
  get _ _ := rfl
  clean s := (forPlaces_one (clear true) () s).symm
  free := .inl fun s => (forPlaces_one release () s).symm

/-! ## The runs in which the blocks are owned -/

/-- A run from the initialised stock, as its places see it. -/
theorem sound_start_iff {κ : Type*} [DecidableEq κ] {F : Operations κ} {freesOld setsNull : Bool}
    {places : List κ} (hF : F.Follows freesOld setsNull places) (ops : List (Op κ)) :
    F.Sound start ops ↔ ∀ k, Phase.unused.Good freesOld setsNull (word k ops) :=
  hF.sound_iff owned_start readable_start ops

/-- **Which runs are sound.**  Over every run from the initialised stock, the server's
`BatchStock` owns its blocks; the client's `BatchStock` and the `CalculationsStock` do where
there is a cleaning between any two additions; and the client's `SenderStock` does where, in
each of its halves and with the last release counted as a cleaning, additions and cleanings
come in turn from the first addition on. -/
theorem stocks_sound_iff (ops : List (Op Unit)) (requests : List (Op Client.Half))
    (batches : List (Op Server.ListenerType)) :
    (Client.batchStock.Sound start ops ↔ CleanedBetween (word () ops))
      ∧ (Client.senderStock.Sound start requests
        ↔ ∀ half, InTurn (word half requests ++ [.clean]))
      ∧ Server.batchStock.Sound start batches
      ∧ (Server.calculationsStock.Sound start ops ↔ CleanedBetween (word () ops)) := by
  refine ⟨?_, ?_, ?_, ?_⟩
  · rw [sound_start_iff Client.follows_batchStock]
    exact (forall_const Unit).trans (good_of_setsNull_iff (word () ops)).1
  · rw [sound_start_iff Client.follows_senderStock]
    exact forall_congr' fun half => good_of_neither_iff (word half requests)
  · rw [sound_start_iff Server.follows_batchStock]
    exact fun l => good_of_freesOld_of_setsNull (by rintro ⟨⟩) (word l batches)
  · rw [sound_start_iff Server.follows_calculationsStock]
    exact (forall_const Unit).trans (good_of_setsNull_iff (word () ops)).1

/-- Two additions lose the first block; a cleaned `SenderStock` that is then released
releases its block twice. -/
theorem stocks_not_sound :
    ¬Client.batchStock.Sound start [.add () 1, .add () 1]
      ∧ ¬Server.calculationsStock.Sound start [.add () 1, .add () 1]
      ∧ ¬Client.senderStock.Sound start [.add .first 6, .add .second 7, .clean] := by
  refine ⟨?_, ?_, ?_⟩
  · rw [sound_start_iff Client.follows_batchStock]
    rintro h
    obtain ⟨φ, hφ, φ', hφ', -⟩ := h ()
    cases hφ
    cases hφ'
  · rw [sound_start_iff Server.follows_calculationsStock]
    rintro h
    obtain ⟨φ, hφ, φ', hφ', -⟩ := h ()
    cases hφ
    cases hφ'
  · rw [sound_start_iff Client.follows_senderStock]
    rintro h
    obtain ⟨φ, hφ, φ', hφ', hlast⟩ := h .first
    cases hφ
    cases hφ'
    exact hlast rfl

end Ownership
