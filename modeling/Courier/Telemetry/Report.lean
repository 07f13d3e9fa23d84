import Courier.Json.Decode
import Courier.Json.Encode

/-! # Assessment reports — workloads by namespace, as assessed

    Only what the telemetry needs is kept of a report; everything else in
    its text is passed over, and what is left out has the empty value of
    its type. -/

namespace Courier

/-- A container image in use. -/
structure Container where
  name : String := ""
  image : String := ""
  imageId : String := ""
  deriving DecidableEq

/-- A pod and its containers. -/
structure Pod where
  containers : List Container := []
  deriving DecidableEq

/-- A workload as assessed. -/
structure AssessedWorkload where
  name : String := ""
  kind : String := ""
  replicas : Int32 := 0
  pods : List Pod := []
  deriving DecidableEq

/-- A namespace and the assessments of its workloads. -/
structure AssessedNamespace where
  name : String := ""
  workloads : List AssessedWorkload := []
  deriving DecidableEq

/-- An assessment report. -/
structure Report where
  namespaces : List AssessedNamespace := []
  deriving DecidableEq

namespace Report

open Json

/-- A field that may be left out and is stored by `store`. -/
def field {σ α : Type} (name : String) (read : Reader α) (store : α → σ → σ) : Member σ :=
  ⟨name, true, do let a ← read; pure (store a)⟩

/-- A container as a record of a JSON text. -/
def containerLayout : Layout Container where
  name := "ReportContainer"
  fields := [field "name" text fun s c => { c with name := s },
    field "image" text fun s c => { c with image := s },
    field "imageID" text fun s c => { c with imageId := s }]
  blank := {}

/-- A pod as a record of a JSON text. -/
def podLayout : Layout Pod where
  name := "ReportPod"
  fields := [field "containers" (list containerLayout.read) fun l p => { p with containers := l }]
  blank := {}

/-- A workload as a record of a JSON text. -/
def workloadLayout : Layout AssessedWorkload where
  name := "ReportWorkload"
  fields := [field "name" text fun s w => { w with name := s },
    field "kind" text fun s w => { w with kind := s },
    field "replicas" int32 fun n w => { w with replicas := n },
    field "pods" (list podLayout.read) fun l w => { w with pods := l }]
  blank := {}

/-- The record around a workload. -/
def assessmentLayout : Layout AssessedWorkload where
  name := "WorkloadAssessment"
  fields := [field "workload" workloadLayout.read fun w _ => w]
  blank := {}

/-- The record around the name of a namespace. -/
def namespaceNameLayout : Layout String where
  name := "NamespaceRef"
  fields := [field "name" text fun s _ => s]
  blank := ""

/-- A namespace as a record of a JSON text. -/
def namespaceLayout : Layout AssessedNamespace where
  name := "NamespaceAssessment"
  fields := [field "namespace" namespaceNameLayout.read fun s n => { n with name := s },
    field "workloadAssessments" (list assessmentLayout.read) fun l n => { n with workloads := l }]
  blank := {}

/-- The record around the namespaces. -/
def specLayout : Layout Report where
  name := "AssessmentReportSpec"
  fields := [field "namespaceAssessments" (list namespaceLayout.read) fun l _ => ⟨l⟩]
  blank := {}

/-- A report as a record of a JSON text. -/
def layout : Layout Report where
  name := "AssessmentReport"
  fields := [field "spec" specLayout.read fun r _ => r]
  blank := {}

/-- Reads a report from bytes. -/
def ofBytes (bytes : List UInt8) : Except Fault Report := decode layout.read bytes

/-- A container as a report shows it. -/
def containerValue (c : Container) : Value :=
  .object [("name", .text c.name), ("image", .text c.image), ("imageID", .text c.imageId)]

/-- A pod as a report shows it. -/
def podValue (p : Pod) : Value := .object [("containers", .list (p.containers.map containerValue))]

/-- A workload as a value, with the record around it. -/
def workloadValue (w : AssessedWorkload) : Value :=
  .object [("workload", .object [("name", .text w.name), ("kind", .text w.kind),
    ("replicas", .int w.replicas.toInt), ("pods", .list (w.pods.map podValue))])]

/-- A namespace as a report shows it. -/
def namespaceValue (n : AssessedNamespace) : Value :=
  .object [("namespace", .object [("name", .text n.name)]),
    ("workloadAssessments", .list (n.workloads.map workloadValue))]

/-- The report as a value, every field in declaration order. -/
def toValue (r : Report) : Value :=
  .object [("spec", .object [("namespaceAssessments", .list (r.namespaces.map namespaceValue))])]

end Report

end Courier
