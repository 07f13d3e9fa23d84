import Courier.Telemetry.Report

/-! # Telemetry payloads — one entry per workload

    A report is flattened in its own order: each workload carries the name
    of its namespace, and the containers of all its pods one after
    another. -/

namespace Courier

/-- A workload with its namespace and all its containers. -/
structure Workload where
  name : String := ""
  kind : String := ""
  ns : String := ""
  replicas : Int32 := 0
  containers : List Container := []
  deriving DecidableEq

/-- The body of a telemetry request. -/
structure Payload where
  workloads : List Workload := []
  deriving DecidableEq

namespace Payload

open Json

/-- A workload of a namespace with the containers of all its pods. -/
def flatten (ns : String) (w : AssessedWorkload) : Workload :=
  ⟨w.name, w.kind, ns, w.replicas, w.pods.flatMap Pod.containers⟩

/-- A report as one list of workloads, in its own order. -/
def ofReport (r : Report) : Payload :=
  ⟨r.namespaces.flatMap fun n => n.workloads.map (flatten n.name)⟩

/-- The number of all containers. -/
def containerCount (p : Payload) : Nat := (p.workloads.flatMap Workload.containers).length

/-- A container as it is posted. -/
def containerValue (c : Container) : Value :=
  .object [("name", .text c.name), ("image", .text c.image), ("image_id", .text c.imageId)]

/-- A workload as it is posted. -/
def workloadValue (w : Workload) : Value :=
  .object [("name", .text w.name), ("kind", .text w.kind), ("namespace", .text w.ns),
    ("replicas", .int w.replicas.toInt), ("containers", .list (w.containers.map containerValue))]

/-- A payload as it is posted. -/
def toValue (p : Payload) : Value := .object [("workloads", .list (p.workloads.map workloadValue))]

/-- The text that is posted. -/
def body (p : Payload) : String := p.toValue.compress

/-- A field that must be there and is stored by `store`. -/
def field {σ α : Type} (name : String) (read : Reader α) (store : α → σ → σ) : Member σ :=
  ⟨name, false, do let a ← read; pure (store a)⟩

/-- A container as a record of a JSON text. -/
def containerLayout : Layout Container where
  name := "Container"
  fields := [field "name" text fun s c => { c with name := s },
    field "image" text fun s c => { c with image := s },
    field "image_id" text fun s c => { c with imageId := s }]
  blank := {}

/-- A workload as a record of a JSON text. -/
def workloadLayout : Layout Workload where
  name := "Workload"
  fields := [field "name" text fun s w => { w with name := s },
    field "kind" text fun s w => { w with kind := s },
    field "namespace" text fun s w => { w with ns := s },
    field "replicas" int32 fun n w => { w with replicas := n },
    field "containers" (list containerLayout.read) fun l w => { w with containers := l }]
  blank := {}

/-- A payload as a record of a JSON text. -/
def layout : Layout Payload where
  name := "TelemetryPayload"
  fields := [field "workloads" (list workloadLayout.read) fun l _ => ⟨l⟩]
  blank := {}

/-- Reads a payload from bytes. -/
def ofBytes (bytes : List UInt8) : Except Fault Payload := decode layout.read bytes

end Payload

end Courier
