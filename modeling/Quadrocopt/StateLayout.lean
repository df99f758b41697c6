/-
# The layout of the state between the programs

The same thirteen numbers are laid out by the client's integrator, split after the sixth
by `get_u`, sent in two datagrams, joined again by `calculate_res`, and read back by
position in `server_calculations`.

`receivedDataOf` follows a payload along this path, through the stocks and the byte codec
and the receive buffers of the server, whatever these held before; at its end stands the
payload itself (`receivedDataOf_eq`).  The quantities that the two programs bind to the
positions are compared by name (`Names`): what `server_calculations` calls `x`, `dotX`,
and so on is what `derivs` and `set_calc_data` call so (`state_layout`).
-/
import Mathlib
import Quadrocopt.AcceptedBytes
import Quadrocopt.CalculatorData
import Quadrocopt.ClientPaths
import Quadrocopt.ControlLaw
import Quadrocopt.Server

/-! ## Where the control law uses the names -/

namespace ServerCalculate

variable {K : Type*} [Field K]

/-- What `server_calculations` computes, in the names that it gives to its parameters. -/
structure ComputedFrom (p : Names K) (r : RefTraj K) (v : Locals K) : Prop where
  V3 : v.V3 = r.ddotref - L0z * (p.z - r.ref) - L1z * (p.dotZ - r.dotref)
  U1 : v.U1 = m * (g + v.V3)
  dotV3 : v.dotV3 = r.d3dotref - L0z * (p.dotZ - r.dotref)
    - L1z * (-g + v.U1 / m - r.ddotref)
  dotU1 : v.dotU1 = m * v.dotV3
  ddotV3 : v.ddotV3 = r.d4dotref - L0z * (-g + v.U1 / m - r.ddotref)
    - L1z * (v.dotU1 / m - r.d3dotref)
  ddotX : v.ddotX = p.theta * v.U1 / m
  d3dotX : v.d3dotX = (p.dotTheta * v.U1 + p.theta * v.dotU1) / m
  V1 : v.V1 = r.d4dotref - L0 * (p.x - r.ref) - L1 * (p.dotX - r.dotref)
    - L2 * (v.ddotX - r.ddotref) - L3 * (v.d3dotX - r.d3dotref)
  U2 : v.U2 = Ix / (g + v.V3) * (v.V1 - 2 * p.dotTheta * v.dotV3 - p.theta * v.ddotV3)
  ddotY : v.ddotY = -(p.phi * v.U1) / m
  d3dotY : v.d3dotY = -(p.dotPhi * v.U1 + p.phi * v.dotU1) / m
  V2 : v.V2 = r.d4dotref - L0 * (p.y - r.ref) - L1 * (p.dotY - r.dotref)
    - L2 * (v.ddotY - r.ddotref) - L3 * (v.d3dotY - r.d3dotref)
  U3 : v.U3 = -(Iy / (g + v.V3)) * (v.V2 + 2 * p.dotPhi * v.dotV3 + p.phi * v.ddotV3)
  V4 : v.V4 = r.ddotref - L0psy * (p.psy - r.ref) - L1psy * (p.dotPsy - r.dotref)
  U4 : v.U4 = Iz * v.V4

/-- Where the control law uses its parameters, it uses them under these names. -/
theorem locals_names (r : RefTraj K) (params : Fin 13 → K) :
    ComputedFrom (names params) r (locals r params) :=
  ⟨rfl, rfl, rfl, rfl, rfl, rfl, rfl, rfl, rfl, rfl, rfl, rfl, rfl, rfl, rfl⟩

/-- The time is used for the reference. -/
theorem serverCalculations_names (tanRh : K → K → K → K → K → RefTraj K) (params : Fin 13 → K) :
    ∃ v, ComputedFrom (names params) (tanRh (names params).t sigma LowVal HighVal TRaise) v
      ∧ serverCalculations tanRh params = v.res :=
  ⟨_, locals_names _ _, rfl⟩

end ServerCalculate

namespace ClientCalculate

variable {K : Type*}

/-- The names that `derivs` gives to the entries of its block, at the time `t`; those it
does not use are commented out there. -/
def names (X : Block K) (t : K) : Names K where
  x := X 1
  dotX := X 2
  y := X 3
  dotY := X 4
  z := X 5
  dotZ := X 6
  theta := X 7
  dotTheta := X 8
  phi := X 9
  dotPhi := X 10
  psy := X 11
  dotPsy := X 12
  t := t

/-- The fields of the calculator's data under these names, at the time `t`. -/
def CalculatorData.names (d : CalculatorData K) (t : K) : Names K where
  x := d.Vx
  dotX := d.VdotX
  y := d.Vy
  dotY := d.VdotY
  z := d.Vz
  dotZ := d.VdotZ
  theta := d.Vtheta
  dotTheta := d.VdotTheta
  phi := d.Vphi
  dotPhi := d.VdotPhi
  psy := d.Vpsy
  dotPsy := d.VdotPsy
  t := t

/-- Where the plant uses its state, it uses it under these names. -/
theorem derivs_names [Field K] (t : K) (X : Block K) (u : Fin 4 → K) :
    let p := names X t
    derivs t X.entries u
      = ![p.dotX, p.theta * u 0 / m, p.dotY, -p.phi * u 0 / m, p.dotZ, u 0 / m - g,
        p.dotTheta, u 1 / Ix, p.dotPhi, u 2 / Iy, p.dotPsy, u 3 / Iz] := rfl

theorem names_setCalcData (d : CalculatorData K) (y : Block K) (t : K) :
    (setCalcData d y).names t = names y t := rfl

theorem names_loadState (d : CalculatorData K) (y : Block K) (t : K) :
    names (loadState d y) t = d.names t := rfl

/-- The payload that is made of a block binds the names of its entries. -/
theorem names_normalizeVector (y : Block K) (t : K) :
    ServerCalculate.names (normalizeVector y NVAR t).get = names y t := rfl

/-- The names of the entries of an array that holds a payload. -/
theorem names_getD (payload : List.Vector CFloat 13) :
    ServerCalculate.names (fun i => payload.toList.getD i 0)
      = ServerCalculate.names payload.get := by
  congr 1
  funext i
  exact List.getD_eq_getElem _ _ (by simp)

/-- A payload is the entries of its block, from the first to the last, then the time. -/
theorem toList_normalizeVector (y : Block K) (t : K) :
    (normalizeVector y NVAR t).toList = (List.range' 1 NVAR).map y ++ [t] := rfl

/-- The two halves of the payload are the two batches of `calculate_structs.c`. -/
theorem halves_getPayloadFromCalcData (d : CalculatorData CFloat) :
    Client.halves (getPayloadFromCalcData d)
      = (getFirstBatchFromCalcData d, getSecondBatchFromCalcData d) := rfl

end ClientCalculate

/-! ## The path of a payload -/

/-- A copy of a whole array succeeds and holds its floats. -/
theorem copyArrOfFloats_of_length {arr : List CFloat} {n : ℕ} (h : arr.length = n) :
    ∃ copy, copyArrOfFloats arr n = some copy ∧ copy.floats = arr := by
  subst h
  exact ⟨_, copyArrOfFloats_length arr, rfl⟩

/-- `get_u` puts the halves of its payload into the stock, and `fetch_batches` takes them
out. -/
def Client.fetchedHalves (stock : Client.SenderStock) (payload : Client.Payload) :
    Option (List CFloat × List CFloat) := do
  let stock ← Client.addFirstBatchToSenderStock stock (Client.firstHalf payload) 6
  let stock ← Client.addSecondBatchToSenderStock stock (Client.secondHalf payload) 7
  return (stock.firstBatch.copy.floats, stock.secondBatch.copy.floats)

/-- The sender gets the two halves, whatever the stock held before. -/
theorem Client.fetchedHalves_eq (stock : Client.SenderStock) (payload : Client.Payload) :
    Client.fetchedHalves stock payload = some (Client.halves payload) := by
  obtain ⟨first, hfirst, hfloats⟩ := copyArrOfFloats_of_length (Client.length_firstHalf payload)
  obtain ⟨second, hsecond, hfloats'⟩ :=
    copyArrOfFloats_of_length (Client.length_secondHalf payload)
  simp only [Client.fetchedHalves, Client.addFirstBatchToSenderStock,
    Client.addSecondBatchToSenderStock, hfirst, hsecond, Option.map_some, bind, Option.bind,
    pure, SizedBuf.copy_eq, hfloats, hfloats', Client.halves]

/-- A listener of the server receives a datagram, decodes its buffer and stores what it
finds. -/
def Server.storeDatagram (buf : Buf) (l : Server.ListenerType) (d : Datagram)
    (bs : Server.BatchStock) : Option Server.BatchStock :=
  match bytesToPack (recvfrom buf d) with
  | .ok pack => Server.storeBatch pack l bs
  | .error _ => none

/-- A batch that was sent is stored as it was, and the other half of the stock stays. -/
theorem Server.storeDatagram_datagramOf (buf : Buf) (l : Server.ListenerType)
    (fs : List CFloat) (bs : Server.BatchStock) (h : 8 + 4 * fs.length ≤ MAXBUF) :
    ∃ bs', Server.storeDatagram buf l (datagramOf fs) bs = some bs'
      ∧ (bs'.half l).floats = fs ∧ ∀ l', l' ≠ l → bs'.half l' = bs.half l' := by
  have h32 : 8 + 4 * fs.length < 2 ^ 32 := lt_of_le_of_lt h (by decide)
  obtain ⟨pack, hpack, htype, hfloats, -⟩ := (wellFormed_datagramOf fs h).bytesToPack_recvfrom buf
  rw [floatsOf_datagramOf fs h32] at hfloats
  have hstored := storedAsDecoded_of_count ((getFloatsCount_eq_iff pack).mpr htype)
  obtain ⟨bs', hbs', hhalf, -⟩ := hstored.server l bs
  obtain ⟨copy, -, hothers⟩ := half_of_storeBatch hbs'
  refine ⟨bs', ?_, by rw [hhalf, hfloats], ?_⟩
  · rw [Server.storeDatagram, hpack]
    exact hbs'
  · intro l' hl
    rw [hothers, if_neg hl]

/-- The array `received_data` that the server builds when `get_u` is called with `payload`:
the two halves go through the sender's stock, a datagram each, the two receive buffers and
the two halves of the server's stock. -/
def receivedDataOf (stock : Client.SenderStock) (bufin : Server.ListenerType → Buf)
    (bs : Server.BatchStock) (payload : Client.Payload) : Option (List CFloat) := do
  let (firstBatch, secondBatch) ← Client.fetchedHalves stock payload
  let bs ← Server.storeDatagram (bufin .first) .first (datagramOf firstBatch) bs
  let bs ← Server.storeDatagram (bufin .second) .second (datagramOf secondBatch) bs
  return Server.receivedData (Server.getFirstStockFromBatch bs)
    (Server.getSecondStockFromBatch bs)

/-- **What arrives is the payload**, bit for bit, whatever the stocks and the buffers held
before. -/
theorem receivedDataOf_eq (stock : Client.SenderStock) (bufin : Server.ListenerType → Buf)
    (bs : Server.BatchStock) (payload : Client.Payload) :
    receivedDataOf stock bufin bs payload = some payload.toList := by
  have hmax : 8 + 4 * 7 ≤ MAXBUF := by decide
  have hlen := Client.length_firstHalf payload
  have hlen' := Client.length_secondHalf payload
  obtain ⟨bs₁, hbs₁, hfirst, -⟩ := Server.storeDatagram_datagramOf (bufin .first) .first
    (Client.firstHalf payload) bs (by omega)
  obtain ⟨bs₂, hbs₂, hsecond, hothers⟩ := Server.storeDatagram_datagramOf (bufin .second) .second
    (Client.secondHalf payload) bs₁ (by omega)
  have hkept : bs₂.firstBatch.floats = Client.firstHalf payload := by
    have hhalf := hothers .first (by decide)
    rw [← hfirst]
    exact congrArg SizedBuf.floats hhalf
  have hstored : bs₂.secondBatch.floats = Client.secondHalf payload := hsecond
  have hjoin : Client.firstHalf payload ++ Client.secondHalf payload = payload.toList := by
    obtain ⟨hfirst', hsecond'⟩ := Prod.mk.inj (Client.halves_eq payload)
    rw [hfirst', hsecond', List.take_append_drop]
  simp only [receivedDataOf, Client.fetchedHalves_eq, Client.halves, bind, Option.bind, hbs₁,
    hbs₂, pure, Server.receivedData_eq, Server.getFirstStockFromBatch,
    Server.getSecondStockFromBatch, SizedBuf.copy_eq, hkept, hstored, hjoin]

/-- **The layout of the state.**  For all data `d` of the calculator, stage vectors `yt` and
stage times `s`, whatever the stocks and buffers on the way held: the array that the server
builds is, bit for bit, the twelve entries of the block that is integrated, in their order,
and then the time; the names that `server_calculations` gives to its entries are those of
`derivs` and of the fields of `d`; and the two builders of payloads agree on the block that
was loaded from `d` and its current time.  Under these names the control law uses its parameters
and the plant its state. -/
theorem state_layout (stock : Client.SenderStock) (bufin : Server.ListenerType → Buf)
    (bs : Server.BatchStock) (d : ClientCalculate.CalculatorData CFloat)
    (y yt : ClientCalculate.Block CFloat) (s : CFloat) :
    (∃ r, receivedDataOf stock bufin bs (ClientCalculate.getPayloadFromCalcData d) = some r
        ∧ r = (List.range' 1 ClientCalculate.NVAR).map (ClientCalculate.loadState d y)
          ++ [d.currTime]
        ∧ ServerCalculate.names (fun i => r.getD i 0)
          = ClientCalculate.names (ClientCalculate.loadState d y) d.currTime
        ∧ ServerCalculate.names (fun i => r.getD i 0) = d.names d.currTime)
      ∧ (∃ r, receivedDataOf stock bufin bs
          (ClientCalculate.normalizeVector yt ClientCalculate.NVAR s) = some r
        ∧ r = (List.range' 1 ClientCalculate.NVAR).map yt ++ [s]
        ∧ ServerCalculate.names (fun i => r.getD i 0) = ClientCalculate.names yt s
        ∧ ServerCalculate.names (fun i => r.getD i 0)
          = (ClientCalculate.setCalcData d yt).names s)
      ∧ ClientCalculate.normalizeVector (ClientCalculate.loadState d y) ClientCalculate.NVAR
          d.currTime = ClientCalculate.getPayloadFromCalcData d
      ∧ ∀ {K : Type} [Field K], (∀ tanRh (params : Fin 13 → K), ∃ v,
          ServerCalculate.ComputedFrom (ServerCalculate.names params)
            (tanRh (ServerCalculate.names params).t ServerCalculate.sigma ServerCalculate.LowVal
              ServerCalculate.HighVal ServerCalculate.TRaise) v
          ∧ ServerCalculate.serverCalculations tanRh params = v.res)
        ∧ ∀ (t : K) (X : ClientCalculate.Block K) (u : Fin 4 → K),
          let p := ClientCalculate.names X t
          ClientCalculate.derivs t X.entries u
            = ![p.dotX, p.theta * u 0 / ClientCalculate.m, p.dotY,
              -p.phi * u 0 / ClientCalculate.m, p.dotZ, u 0 / ClientCalculate.m - ClientCalculate.g,
              p.dotTheta, u 1 / ClientCalculate.Ix, p.dotPhi, u 2 / ClientCalculate.Iy,
              p.dotPsy, u 3 / ClientCalculate.Iz] := by
  have hloaded := ClientCalculate.normalizeVector_loadState d y
  have hnames : ServerCalculate.names
        (fun i => (ClientCalculate.getPayloadFromCalcData d).toList.getD i 0)
      = ClientCalculate.names (ClientCalculate.loadState d y) d.currTime := by
    rw [ClientCalculate.names_getD, ← hloaded, ClientCalculate.names_normalizeVector]
  have hnames' : ServerCalculate.names
        (fun i => (ClientCalculate.normalizeVector yt ClientCalculate.NVAR s).toList.getD i 0)
      = ClientCalculate.names yt s := by
    rw [ClientCalculate.names_getD, ClientCalculate.names_normalizeVector]
  refine ⟨⟨_, receivedDataOf_eq _ _ _ _, ?_, hnames, ?_⟩,
    ⟨_, receivedDataOf_eq _ _ _ _, ?_, hnames', ?_⟩, hloaded,
    ServerCalculate.serverCalculations_names, ClientCalculate.derivs_names⟩
  · rw [← hloaded, ClientCalculate.toList_normalizeVector]
  · rw [hnames, ClientCalculate.names_loadState]
  · exact ClientCalculate.toList_normalizeVector yt s
  · rw [hnames', ClientCalculate.names_setCalcData]
