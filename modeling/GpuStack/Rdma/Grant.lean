import GpuStack.DevicePlugin.KubeletAllocations
import GpuStack.Rdma.Policy

/-!
# Rdma/Grant — what a container is granted

Kubelet hands the server the tokens it chose, perhaps before the last resolution.  Each token is resolved to an
endpoint of the one capture the response is built from, and the verbs devices of the endpoints are granted
as far as the selection in force allows.

A resolution that does not apply leaves an empty selection in force, so what is granted is always among what
the last resolution selected (`granted_selected`).
-/

namespace GpuStack.Rdma

/-! ### The selection in force -/

/-- The selection a resolution asks for; one that does not apply withholds everything. -/
def nextSelection (r : Resolution) : AppliedSelection :=
  if r.Applies then ⟨r.selected.toFinset, r.port, r.inventoryRevision⟩ else ⟨∅, none, r.inventoryRevision⟩

/-- Put a resolution in force, unless it changes nothing. -/
def applyRDMASelection (sel : Option AppliedSelection) (r : Resolution) : Option AppliedSelection :=
  if sel = some (nextSelection r) then sel else some (nextSelection r)

theorem applyRDMASelection_eq (sel : Option AppliedSelection) (r : Resolution) :
    applyRDMASelection sel r = some (nextSelection r) := by
  unfold applyRDMASelection
  split
  · assumption
  · rfl

/-- What is in force is what was resolved, whether or not it applies. -/
theorem selected_nextSelection (inputs : PolicyInputs) :
    (nextSelection (resolveRDMAPolicy inputs)).selected = (resolveRDMAPolicy inputs).selected.toFinset := by
  unfold nextSelection
  split
  · rfl
  · rename_i hnot
    rw [(selected_of_not_applies hnot).1]
    rfl

/-! ### Endpoints -/

structure Endpoint where
  resource : Resource
  rdmaDevice : String
deriving DecidableEq, Repr

/-- The endpoints an interface has in a mode: its virtual functions when it has some, itself otherwise. -/
def rdmaEndpoints (iface : DeviceInterface) (mode : DeviceAllocationMode) : List Endpoint :=
  let partitioned := iface.sriov ∧ iface.virtualFunctions ≠ []
  match mode with
  | .partitioned =>
    if partitioned then
      (iface.virtualFunctions.filter (·.rdmaDevice ≠ "")).map fun vf =>
        ⟨⟨iface.name, if vf.name = "" then vf.rdmaDevice else vf.name⟩, vf.rdmaDevice⟩
    else []
  | .exclusive | .shared =>
    if partitioned ∨ iface.rdmaDevice = "" then [] else [⟨⟨iface.name, iface.name⟩, iface.rdmaDevice⟩]
  | _ => []

/-- Why an Allocate is refused. -/
inductive GrantError
  | invalidID (id : String) (e : TokenError)
  | noEndpoint (id : String)
  | grantsNothing
  | verbsDevice (name : String)
  | verbsNode (name node : String)
deriving DecidableEq, Repr

/-- The endpoint a locator names. -/
def grantedEndpoint (snap : InterfaceSnapshot) (mode : DeviceAllocationMode) (res : Resource) :
    Option Endpoint :=
  (snap.interfaces.flatMap (rdmaEndpoints · mode)).find? (·.resource = res)

/-- The endpoints of the tokens, each once. -/
def resolveEndpoints (snap : InterfaceSnapshot) (mode : DeviceAllocationMode) :
    List String → List Resource → Except GrantError (List Endpoint)
  | [], _ => .ok []
  | id :: ids, seen =>
    match parseResourceToken id with
    | .error e => .error (.invalidID id e)
    | .ok token =>
      if token.resource ∈ seen then resolveEndpoints snap mode ids seen
      else
        match grantedEndpoint snap mode token.resource with
        | none => .error (.noEndpoint id)
        | some endpoint =>
          (resolveEndpoints snap mode ids (token.resource :: seen)).map (endpoint :: ·)

def grantedEndpoints (snap : InterfaceSnapshot) (mode : DeviceAllocationMode) (ids : List String) :
    Except GrantError (List Endpoint) :=
  match resolveEndpoints snap mode ids [] with
  | .ok [] => .error .grantsNothing
  | result => result

/-! ### The response -/

/-- The verbs device may be offered. -/
def InterfaceSnapshot.isHCAEligible (snap : InterfaceSnapshot) (hca : String) : Bool :=
  hca ≠ "" && hca ∉ snap.externalHCAs &&
    match snap.selectedHCAs with
    | some selected => hca ∈ selected
    | none => true

/-- What the host has: the verbs node of a device, the nodes that exist, the connection manager. -/
structure Host where
  verbsDevicePath : String → Option String
  hasNode : String → Bool
  hasConnectionManager : Bool

structure ContainerAllocateResponse where
  ncclIbHCA : String := ""
  rdmaDevices : String := ""
  devices : List String := []
deriving DecidableEq, Repr

/-- The node a granted device is handed over with. -/
def verbsNode (host : Host) (name : String) : Except GrantError String :=
  match host.verbsDevicePath name with
  | none => .error (.verbsDevice name)
  | some node => if host.hasNode node then .ok node else .error (.verbsNode name node)

/-- The response that grants some devices. -/
def responseFor (host : Host) (port : Option ℤ) (grants : List String) :
    Except GrantError ContainerAllocateResponse :=
  if grants = [] then .ok {}
  else do
    let nodes ← grants.mapM (verbsNode host)
    let filter := match port with
      | none => grants
      | some port => grants.map fun name => s!"{name}:{port}"
    .ok
      { ncclIbHCA := "=" ++ ",".intercalate filter
        rdmaDevices := ",".intercalate grants
        devices := nodes ++ if host.hasConnectionManager then ["rdma_cm"] else [] }

/-- The verbs devices of some endpoints that may be offered. -/
def grantsOf (snap : InterfaceSnapshot) (endpoints : List Endpoint) : List String :=
  ((endpoints.map (·.rdmaDevice)).dedup.filter snap.isHCAEligible).insertionSort (· ≤ ·)

/-- **One container's Allocate.** -/
def allocateContainer (host : Host) (snap : InterfaceSnapshot) (mode : DeviceAllocationMode)
    (deviceIDs : List String) : Except GrantError ContainerAllocateResponse := do
  let endpoints ← grantedEndpoints snap mode (deviceIDs.insertionSort (· ≤ ·))
  responseFor host snap.port (grantsOf snap endpoints)

/-! ### What is granted -/

theorem selectedHCAs_capture (interfaces : List DeviceInterface) (inv : Option RDMASnapshot)
    (sel : Option AppliedSelection) :
    (captureRDMAInterfaceSnapshotFrom interfaces inv sel).selectedHCAs = sel.map (·.selected) := by
  unfold captureRDMAInterfaceSnapshotFrom
  cases inv with
  | none => rfl
  | some inv =>
    dsimp only
    split <;> rfl

/-- **What is granted was selected by the last resolution.** -/
theorem granted_selected (inputs : PolicyInputs) (earlier : List Resolution) (host : Host)
    (interfaces : List DeviceInterface) (inv : Option RDMASnapshot) (mode : DeviceAllocationMode)
    (ids : List String) {response : ContainerAllocateResponse}
    (h : allocateContainer host (captureRDMAInterfaceSnapshotFrom interfaces inv
      ((earlier ++ [resolveRDMAPolicy inputs]).foldl applyRDMASelection none)) mode ids = .ok response) :
    ∃ port granted, responseFor host port granted = .ok response ∧
      ∀ name ∈ granted, name ∈ (resolveRDMAPolicy inputs).selected := by
  rw [List.foldl_append, List.foldl_cons, List.foldl_nil, applyRDMASelection_eq] at h
  obtain ⟨endpoints, -, hresponse⟩ := Scan.bind_eq_ok.mp h
  refine ⟨_, _, hresponse, fun name hname => ?_⟩
  rw [grantsOf, List.mem_insertionSort, List.mem_filter, InterfaceSnapshot.isHCAEligible,
    selectedHCAs_capture, Bool.and_eq_true] at hname
  simpa [selected_nextSelection] using hname.2.2

/-- **The laws of a resolution.**  For policies of distinct identities and devices of distinct names: no order
matters; a resolution that applies splits the observation into sorted lists, and any other selects and
excludes nothing; an external device is not selected; and once the resolution is in force, after whatever
others, a container is granted nothing but what it selected. -/
theorem resolution_laws {a b : PolicyInputs} (hperm : Permuted a b) (hnames : a.DistinctNames)
    (hids : (a.policies.map SelectionPolicy.identity).Nodup) :
    resolveRDMAPolicy b = resolveRDMAPolicy a ∧
    (∀ inv, a.inventory = some inv →
      ((resolveRDMAPolicy a).Applies → Splits (resolveRDMAPolicy a) inv.devices) ∧
      ∀ dev ∈ inv.devices, dev.owner = .external → dev.name ∉ (resolveRDMAPolicy a).selected) ∧
    (¬ (resolveRDMAPolicy a).Applies →
      (resolveRDMAPolicy a).selected = [] ∧ (resolveRDMAPolicy a).excluded = []) ∧
    ∀ (earlier : List Resolution) (host : Host) (interfaces : List DeviceInterface)
      (inv : Option RDMASnapshot) (mode : DeviceAllocationMode) (ids : List String)
      (response : ContainerAllocateResponse),
      allocateContainer host (captureRDMAInterfaceSnapshotFrom interfaces inv
        ((earlier ++ [resolveRDMAPolicy a]).foldl applyRDMASelection none)) mode ids = .ok response →
      ∃ port granted, responseFor host port granted = .ok response ∧
        ∀ name ∈ granted, name ∈ (resolveRDMAPolicy a).selected :=
  ⟨(resolve_permuted hperm hnames hids).symm,
    fun _ hinv => ⟨splits_of_applies hinv, fun _ hdev hext => external_not_selected hinv hnames hdev hext⟩,
    selected_of_not_applies,
    fun earlier host interfaces inv mode ids _ h => granted_selected a earlier host interfaces inv mode ids h⟩

/-! ### Where the laws end -/

/-- A policy for every node. -/
def everywhere (uid : String) : SelectionPolicy := ⟨"p", uid, 0, .readable fun _ => true, [], [], none⟩

/-- A policy without a selector. -/
def selectorless (generation : ℤ) : SelectionPolicy := ⟨"p", "u", generation, .missing, [], [], none⟩

def inputsOf (policies : List SelectionPolicy) (devices : List RDMADevice) : PolicyInputs :=
  { synced := true, policies := policies, inventory := some { devices := devices, complete := true } }

def verbsHost : Host := ⟨fun _ => some "uverbs0", fun _ => true, false⟩

/-- **Two policies for one node leave both lists empty**, two policies of one identity are reported in the order
they come, and before the first resolution a container is granted what none selected. -/
theorem laws_end :
    ((resolveRDMAPolicy (inputsOf [everywhere "u", everywhere "v"] [{ name := "mlx5_0" }])).selected = [] ∧
      (resolveRDMAPolicy (inputsOf [everywhere "u", everywhere "v"] [{ name := "mlx5_0" }])).excluded = []) ∧
    (resolveRDMAPolicy (inputsOf [selectorless 1, selectorless 2] [])).policyRef ≠
      (resolveRDMAPolicy (inputsOf [selectorless 2, selectorless 1] [])).policyRef ∧
    allocateContainer verbsHost (captureRDMAInterfaceSnapshotFrom []
      (some { devices := [{ name := "mlx5_0" }], complete := true }) none) .shared ["mlx5_0:mlx5_0:0"]
        = .ok ⟨"=mlx5_0", "mlx5_0", ["uverbs0"]⟩ :=
  ⟨⟨by decide +kernel, by decide +kernel⟩, by decide +kernel, by rfl⟩

theorem resolution_laws_pair :
    resolveRDMAPolicy (inputsOf [everywhere "u"] [{ name := "b", owner := .external }, { name := "a" }]) =
      resolveRDMAPolicy (inputsOf [everywhere "u"] [{ name := "a" }, { name := "b", owner := .external }]) :=
  (resolution_laws (a := inputsOf [everywhere "u"] [{ name := "a" }, { name := "b", owner := .external }])
    (b := inputsOf [everywhere "u"] [{ name := "b", owner := .external }, { name := "a" }])
    ⟨rfl, rfl, rfl, rfl, .refl _, .some ⟨rfl, rfl, .swap _ _ _⟩⟩
    (fun _ h => Option.some.inj h ▸ by decide) (by decide)).1

end GpuStack.Rdma
