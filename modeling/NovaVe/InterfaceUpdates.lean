import NovaVe.JsonValues
import NovaVe.Nodes
import NovaVe.PairedNodes

namespace NovaVe

/-- An interface of a node, with every key it has. -/
abbrev IfaceRecord := Dict String JsonValue

/-- A node whose interfaces are kept as they are stored; the interfaces of `node` are not used. -/
structure NodeRecord where
  node : Node
  interfaces : List IfaceRecord

/-- What `_default_interfaces` stores for one interface. -/
def defaultRecord (iface : Iface) : IfaceRecord :=
  ((((Dict.empty.set "index" (.int iface.index)).set "name" (.str iface.name)).set
    "planned_mac" .null).set "port_position" .null).set "network_id" (.int 0)

/-- `resized[index][key] = interface.get(key)`, if the key is there. -/
def copyIfThere (source : IfaceRecord) (key : String) (record : IfaceRecord) : IfaceRecord :=
  match source.get? key with
  | none => record
  | some value => record.set key value

/-- One round of the loop of `_resize_interfaces`. -/
def resizedRecord (fresh : Iface) (source : IfaceRecord) : IfaceRecord :=
  let named := copyIfThere source "name" (defaultRecord fresh)
  let networked := named.set "network_id" ((source.get? "network_id").getD (.int 0))
  copyIfThere source "port_position" (copyIfThere source "planned_mac" networked)

def resizeRecords (existing : List IfaceRecord) (type : NodeType) (ethernet : Int) :
    Option (List IfaceRecord) :=
  resizeEntries defaultRecord resizedRecord existing type ethernet

/-- `update_node` on one node. -/
def updateNodeRecord (host : NodeHost) (running : Bool) (stored : NodeRecord)
    (request : NodeUpdate) : Except RouteError NodeRecord :=
  match validateNodeUpdateRequest host stored.node request running with
  | .error message => .error (.response 400 message)
  | .ok _ =>
    let updated := applyNodeUpdate stored.node request
    match resizeRecords stored.interfaces updated.type updated.ethernet with
    | none => .error .raised
    | some interfaces => .ok { node := updated, interfaces := interfaces }

/-- How a node was created: with a scheme of its own and a format of its template, or as the child
of a paired template. -/
inductive NodeOrigin
  | plain (scheme templateNaming : Option String)
  | paired (lower : String → String) (child : PairedChild)

/-- The interfaces the creation of the node with the given count makes. -/
def NodeOrigin.interfaces (type : NodeType) (ethernet : Int) : NodeOrigin → List Iface
  | .plain scheme templateNaming => defaultInterfaces type ethernet scheme templateNaming
  | .paired lower child => pairedChildInterfaces lower { child with ethernet := .value ethernet }

/-- Every interface below the old and the new count keeps every key it had. -/
def RecordsKept (before after : NodeRecord) : Prop :=
  ∀ (i : Nat) record, (i : Int) < before.node.ethernet → (i : Int) < after.node.ethernet →
    before.interfaces[i]? = some record →
      ∃ record', after.interfaces[i]? = some record' ∧
        ∀ key value, record.get? key = some value → record'.get? key = some value

/-- Every interface that was not there before is named and numbered as at creation. -/
def AddedAsCreated (origin : NodeOrigin) (before after : NodeRecord) : Prop :=
  ∀ i : Nat, before.interfaces.length ≤ i → (i : Int) < after.node.ethernet →
    ∃ record created, after.interfaces[i]? = some record ∧
      (origin.interfaces after.node.type after.node.ethernet)[i]? = some created ∧
      record.get? "name" = some (.str created.name) ∧
      record.get? "index" = some (.int created.index)

/-- A record with no key but the copied ones, at the index it stands at. -/
def OnlyCopiedKeys (i : Nat) (record : IfaceRecord) : Prop :=
  ∀ key value, record.get? key = some value →
    key ∈ ["name", "network_id", "planned_mac", "port_position"] ∨
      (key = "index" ∧ value = .int i)

/-- The count after the update. -/
def newEthernet (stored : NodeRecord) (request : NodeUpdate) : Int :=
  sentOr request.ethernet stored.node.ethernet

/-- The interfaces that stay have no other keys, and creation would name the new ones by the
fallback. -/
def UpdateSpares (origin : NodeOrigin) (stored : NodeRecord) (request : NodeUpdate) : Prop :=
  (∀ (i : Nat) record, (i : Int) < stored.node.ethernet → (i : Int) < newEthernet stored request →
    stored.interfaces[i]? = some record → OnlyCopiedKeys i record) ∧
  ∀ i : Nat, stored.interfaces.length ≤ i → (i : Int) < newEthernet stored request →
    ((origin.interfaces stored.node.type (newEthernet stored request))[i]?).map Iface.name =
      some (interfaceName stored.node.type none none i)

theorem copyIfThere_get? (source : IfaceRecord) (key other : String) (record : IfaceRecord) :
    (copyIfThere source key record).get? other =
      if key = other then (source.get? key).or (record.get? other) else record.get? other := by
  unfold copyIfThere
  by_cases hkey : key = other
  · subst hkey
    rw [if_pos rfl]
    cases hget : source.get? key with
    | none => rfl
    | some value => simp
  · rw [if_neg hkey]
    cases hget : source.get? key with
    | none => rfl
    | some value => exact Dict.get?_set_ne _ _ hkey

theorem defaultRecord_get? (fresh : Iface) (key : String) :
    (defaultRecord fresh).get? key =
      if "network_id" = key then some (.int 0)
      else if "port_position" = key then some .null
      else if "planned_mac" = key then some .null
      else if "name" = key then some (.str fresh.name)
      else if "index" = key then some (.int fresh.index)
      else none := by
  unfold defaultRecord
  rw [Dict.get?_set, Dict.get?_set, Dict.get?_set, Dict.get?_set, Dict.get?_set, Dict.get?_empty]

/-- What the loop leaves of a key. -/
theorem resizedRecord_get? (fresh : Iface) (source : IfaceRecord) (key : String) :
    (resizedRecord fresh source).get? key =
      if key ∈ ["name", "planned_mac", "port_position"] then
        (source.get? key).or ((defaultRecord fresh).get? key)
      else if key = "network_id" then some ((source.get? key).getD (.int 0))
      else (defaultRecord fresh).get? key := by
  unfold resizedRecord
  dsimp only
  rw [copyIfThere_get?, copyIfThere_get?, Dict.get?_set, copyIfThere_get?]
  by_cases hport : "port_position" = key
  · subst hport
    simp
  · by_cases hmac : "planned_mac" = key
    · subst hmac
      simp
    · by_cases hnet : "network_id" = key
      · subst hnet
        simp
      · by_cases hname : "name" = key
        · subst hname
          simp
        · simp [hport, hmac, hnet, hname, Ne.symm hport, Ne.symm hmac, Ne.symm hnet, Ne.symm hname]

theorem defaultInterfaces_get? {type : NodeType} {ethernet : Int}
    {scheme templateNaming : Option String} {i : Nat} (hi : (i : Int) < ethernet) :
    (defaultInterfaces type ethernet scheme templateNaming)[i]? =
      some { index := (i : Int), name := interfaceName type scheme templateNaming i } := by
  have hlt : i < ethernet.toNat := by omega
  unfold defaultInterfaces
  rw [List.getElem?_map, List.getElem?_range hlt]
  rfl

theorem sliceTo_get? {α : Type} {xs : List α} {count : Int} {i : Nat} (hi : (i : Int) < count) :
    (sliceTo xs count)[i]? = xs[i]? := by
  have hnot : ¬ count < 0 := by omega
  have hlt : i < count.toNat := by omega
  unfold sliceTo
  rw [if_neg hnot, List.getElem?_take_of_lt hlt]

/-- The interface `_default_interfaces` gives `_resize_interfaces` for a position. -/
def fallbackIface (type : NodeType) (i : Nat) : Iface :=
  { index := (i : Int), name := interfaceName type none none i }

theorem resizeRecords_get? {existing interfaces : List IfaceRecord} {type : NodeType}
    {ethernet : Int} (h : resizeRecords existing type ethernet = some interfaces) {i : Nat}
    (hi : (i : Int) < ethernet) :
    interfaces[i]? = some ((existing[i]?).elim (defaultRecord (fallbackIface type i))
      (resizedRecord (fallbackIface type i))) := by
  unfold resizeRecords resizeEntries at h
  dsimp only at h
  by_cases hshort : (defaultInterfaces type ethernet none none).length <
      (sliceTo existing ethernet).length
  · rw [if_pos hshort] at h
    cases h
  · rw [if_neg hshort] at h
    cases h
    rw [List.getElem?_mapIdx, defaultInterfaces_get? hi, Option.map_some, sliceTo_get? hi]
    cases existing[i]? with
    | none => rfl
    | some source => rfl

theorem updateNodeRecord_ok {host : NodeHost} {running : Bool} {stored updated : NodeRecord}
    {request : NodeUpdate} (h : updateNodeRecord host running stored request = .ok updated) :
    updated.node.type = stored.node.type ∧ updated.node.ethernet = newEthernet stored request ∧
      resizeRecords stored.interfaces stored.node.type (newEthernet stored request) =
        some updated.interfaces := by
  unfold updateNodeRecord at h
  cases hvalid : validateNodeUpdateRequest host stored.node request running with
  | error message =>
    rw [hvalid] at h
    cases h
  | ok _ =>
    rw [hvalid] at h
    dsimp only at h
    have htype : (applyNodeUpdate stored.node request).type = stored.node.type := rfl
    have hcount : (applyNodeUpdate stored.node request).ethernet = newEthernet stored request := rfl
    rw [htype, hcount] at h
    cases hresized : resizeRecords stored.interfaces stored.node.type
        (newEthernet stored request) with
    | none =>
      rw [hresized] at h
      cases h
    | some interfaces =>
      rw [hresized] at h
      cases h
      exact ⟨htype, hcount, rfl⟩

/-- A record survives the loop whole exactly when it has no key but the copied ones. -/
theorem resizedRecord_keeps_iff (type : NodeType) (i : Nat) (record : IfaceRecord) :
    (∀ key value, record.get? key = some value →
      (resizedRecord (fallbackIface type i) record).get? key = some value) ↔
    OnlyCopiedKeys i record := by
  constructor
  · intro h key value hget
    have hkept := h key value hget
    rw [resizedRecord_get?] at hkept
    by_cases hcopied : key ∈ ["name", "planned_mac", "port_position"]
    · left
      simp only [List.mem_cons, List.not_mem_nil, or_false] at hcopied ⊢
      rcases hcopied with hkey | hkey | hkey
      · exact Or.inl hkey
      · exact Or.inr (Or.inr (Or.inl hkey))
      · exact Or.inr (Or.inr (Or.inr hkey))
    · rw [if_neg hcopied] at hkept
      by_cases hnet : key = "network_id"
      · left
        rw [hnet]
        decide
      · rw [if_neg hnet, defaultRecord_get?, if_neg (Ne.symm hnet)] at hkept
        simp only [List.mem_cons, List.not_mem_nil, or_false, not_or] at hcopied
        obtain ⟨hname, hmac, hport⟩ := hcopied
        rw [if_neg (Ne.symm hport), if_neg (Ne.symm hmac), if_neg (Ne.symm hname)] at hkept
        by_cases hindex : "index" = key
        · rw [if_pos hindex] at hkept
          right
          exact ⟨hindex.symm, (Option.some.inj hkept).symm⟩
        · rw [if_neg hindex] at hkept
          cases hkept
  · intro h key value hget
    rw [resizedRecord_get?, hget]
    by_cases hcopied : key ∈ ["name", "planned_mac", "port_position"]
    · rw [if_pos hcopied]
      rfl
    · rw [if_neg hcopied]
      by_cases hnet : key = "network_id"
      · rw [if_pos hnet]
        rfl
      · rw [if_neg hnet]
        rcases h key value hget with hmem | ⟨hkey, hvalue⟩
        · simp only [List.mem_cons, List.not_mem_nil, or_false, not_or] at hmem hcopied
          obtain ⟨hname, hmac, hport⟩ := hcopied
          rcases hmem with hkey | hkey | hkey | hkey
          · exact absurd hkey hname
          · exact absurd hkey hnet
          · exact absurd hkey hmac
          · exact absurd hkey hport
        · subst hkey
          subst hvalue
          rfl

theorem recordsKept_iff {host : NodeHost} {running : Bool} {stored updated : NodeRecord}
    {request : NodeUpdate} (h : updateNodeRecord host running stored request = .ok updated) :
    RecordsKept stored updated ↔
      ∀ (i : Nat) record, (i : Int) < stored.node.ethernet →
        (i : Int) < newEthernet stored request →
        stored.interfaces[i]? = some record → OnlyCopiedKeys i record := by
  obtain ⟨_, hcount, hresized⟩ := updateNodeRecord_ok h
  unfold RecordsKept
  rw [hcount]
  constructor
  · intro hkept i record hold hnew hget
    obtain ⟨record', hget', hkeys⟩ := hkept i record hold hnew hget
    have hafter := resizeRecords_get? hresized hnew
    rw [hget'] at hafter
    rw [hget] at hafter
    have heq := Option.some.inj hafter
    subst heq
    exact (resizedRecord_keeps_iff stored.node.type i record).mp hkeys
  · intro hcopied i record hold hnew hget
    have hafter := resizeRecords_get? hresized hnew
    rw [hget] at hafter
    refine ⟨_, hafter, ?_⟩
    exact (resizedRecord_keeps_iff stored.node.type i record).mpr (hcopied i record hold hnew hget)

/-- Creation numbers the interfaces by their positions. -/
theorem NodeOrigin.interfaces_get? (origin : NodeOrigin) {type : NodeType} {ethernet : Int}
    {i : Nat} (hi : (i : Int) < ethernet) :
    ∃ created, (origin.interfaces type ethernet)[i]? = some created ∧ created.index = i := by
  cases origin with
  | plain scheme templateNaming => exact ⟨_, defaultInterfaces_get? hi, rfl⟩
  | paired lower child =>
    have hcount : PairedChild.ethernetCount { child with ethernet := .value ethernet } = ethernet :=
      rfl
    show ∃ created, (pairedChildInterfaces lower { child with ethernet := .value ethernet })[i]? =
      some created ∧ created.index = i
    unfold pairedChildInterfaces
    rw [hcount, List.getElem?_mapIdx, defaultInterfaces_get? hi]
    exact ⟨_, rfl, rfl⟩

theorem addedAsCreated_iff {host : NodeHost} {running : Bool} {stored updated : NodeRecord}
    {request : NodeUpdate} (origin : NodeOrigin)
    (h : updateNodeRecord host running stored request = .ok updated) :
    AddedAsCreated origin stored updated ↔
      ∀ i : Nat, stored.interfaces.length ≤ i → (i : Int) < newEthernet stored request →
        ((origin.interfaces stored.node.type (newEthernet stored request))[i]?).map Iface.name =
          some (interfaceName stored.node.type none none i) := by
  obtain ⟨htype, hcount, hresized⟩ := updateNodeRecord_ok h
  unfold AddedAsCreated
  rw [htype, hcount]
  have hadded : ∀ i : Nat, stored.interfaces.length ≤ i →
      (i : Int) < newEthernet stored request →
        updated.interfaces[i]? = some (defaultRecord (fallbackIface stored.node.type i)) := by
    intro i hlen hnew
    have hafter := resizeRecords_get? hresized hnew
    rw [List.getElem?_eq_none hlen] at hafter
    exact hafter
  constructor
  · intro hcreated i hlen hnew
    obtain ⟨record, created, hget, hmade, hname, _⟩ := hcreated i hlen hnew
    have heq := Option.some.inj ((hadded i hlen hnew).symm.trans hget)
    subst heq
    rw [defaultRecord_get?] at hname
    have htext : JsonValue.str (interfaceName stored.node.type none none i) =
        .str created.name := Option.some.inj hname
    rw [hmade, Option.map_some, JsonValue.str.inj htext]
  · intro hnames i hlen hnew
    obtain ⟨created, hmade, hindex⟩ := @NodeOrigin.interfaces_get? origin stored.node.type _ i hnew
    have hname := hnames i hlen hnew
    rw [hmade, Option.map_some] at hname
    refine ⟨_, created, hadded i hlen hnew, hmade, ?_, ?_⟩
    · rw [defaultRecord_get?, Option.some.inj hname]
      rfl
    · rw [defaultRecord_get?, hindex]
      rfl

/-- An accepted update leaves the interfaces whole, and adds those creation would have made,
exactly when they have no other keys and creation would name the new ones by the fallback. -/
theorem update_spares_iff (host : NodeHost) (running : Bool) (origin : NodeOrigin)
    (stored updated : NodeRecord) (request : NodeUpdate)
    (h : updateNodeRecord host running stored request = .ok updated) :
    (RecordsKept stored updated ∧ AddedAsCreated origin stored updated) ↔
      UpdateSpares origin stored request := by
  rw [recordsKept_iff h, addedAsCreated_iff origin h]
  rfl

/-- A host without templates, on which no node runs. -/
def bareNodeHost : NodeHost where
  template _ _ _ := .error "Template does not exist."
  running _ := false
  newUuid := ""

def routerNode : Node :=
  { id := 1, name := "R1", type := .qemu, ethernet := 1 }

/-- A router with one plain interface. -/
def plainRouter : NodeRecord :=
  { node := routerNode, interfaces := [defaultRecord (fallbackIface .qemu 0)] }

/-- The plain router is renamed and gets a second interface. -/
theorem plain_router_grows :
    RecordsKept plainRouter
      { node := { routerNode with name := "R2", ethernet := 2 }
        interfaces := [resizedRecord (fallbackIface .qemu 0) (defaultRecord (fallbackIface .qemu 0)),
          defaultRecord (fallbackIface .qemu 1)] } ∧
    AddedAsCreated (.plain none none) plainRouter
      { node := { routerNode with name := "R2", ethernet := 2 }
        interfaces := [resizedRecord (fallbackIface .qemu 0) (defaultRecord (fallbackIface .qemu 0)),
          defaultRecord (fallbackIface .qemu 1)] } := by
  apply (update_spares_iff bareNodeHost false (.plain none none) plainRouter _
    { name := some (some "R2"), ethernet := some (some 2) } rfl).mpr
  constructor
  · intro i record hold _ hget key value hvalue
    have hcount : plainRouter.node.ethernet = 1 := rfl
    have hzero : i = 0 := by omega
    subst hzero
    cases hget
    rw [defaultRecord_get?] at hvalue
    split at hvalue
    next hkey => exact Or.inl (by rw [← hkey]; decide)
    next =>
      split at hvalue
      next hkey => exact Or.inl (by rw [← hkey]; decide)
      next =>
        split at hvalue
        next hkey => exact Or.inl (by rw [← hkey]; decide)
        next =>
          split at hvalue
          next hkey => exact Or.inl (by rw [← hkey]; decide)
          next =>
            split at hvalue
            next hkey => exact Or.inr ⟨hkey.symm, (Option.some.inj hvalue).symm⟩
            next => cases hvalue
  · intro i _ hnew
    have hmade := @defaultInterfaces_get? .qemu _ none none i hnew
    have hnames := congrArg (Option.map Iface.name) hmade
    exact hnames

/-- The first interface of the node is its uplink. -/
def uplinkRouter : NodeRecord :=
  { node := routerNode
    interfaces := [(defaultRecord (fallbackIface .qemu 0)).set "extras"
      (.obj [("uplink", .bool true)])] }

/-- A child of a paired template, whose interfaces have explicit names. -/
def routingChild : PairedChild :=
  { id := "vcp", kind := "qemu"
    interfaceNaming := .block { explicit := some (.names [some "fxp0", some "em0"]) } }

/-- The child as it was created with one interface. -/
def childRouter : NodeRecord :=
  { node := { routerNode with template := "vmx__vcp" }
    interfaces := [defaultRecord { index := 0, name := "fxp0" }] }

/-- A rename drops the uplink flag, and the second interface of a paired child gets the fallback
name. -/
theorem update_does_not_spare :
    ¬(∀ (host : NodeHost) (running : Bool) (stored updated : NodeRecord) (request : NodeUpdate),
        updateNodeRecord host running stored request = .ok updated →
        RecordsKept stored updated) ∧
    ¬(∀ (host : NodeHost) (running : Bool) (origin : NodeOrigin) (stored updated : NodeRecord)
        (request : NodeUpdate), updateNodeRecord host running stored request = .ok updated →
        AddedAsCreated origin stored updated) := by
  constructor
  · intro h
    obtain ⟨record', hget, hkeys⟩ := h bareNodeHost false uplinkRouter _
      { name := some (some "R2") } rfl 0 _ (by decide) (by decide) rfl
    cases hget
    have huplink := hkeys "extras" _ rfl
    cases huplink
  · intro h
    obtain ⟨record, created, hget, hmade, hname, _⟩ := h bareNodeHost false
      (.paired id routingChild) childRouter _ { ethernet := some (some 2) } rfl 1
      (by decide) (by decide)
    have hrecord : record = defaultRecord (fallbackIface .qemu 1) := (Option.some.inj hget).symm
    have hcreated : created.name = "em0" := by
      have hnames := congrArg (Option.map Iface.name) hmade
      exact (Option.some.inj hnames).symm
    rw [hcreated, hrecord, defaultRecord_get?] at hname
    have htext : "Gi2" = "em0" := JsonValue.str.inj (Option.some.inj hname)
    exact absurd htext (by decide)

end NovaVe
