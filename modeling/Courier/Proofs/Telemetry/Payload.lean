import Courier.Proofs.Json.Compact
import Courier.Proofs.Json.Record
import Courier.Telemetry.Payload

/-! # Telemetry payloads — what is posted is the report, flattened

    The body of a payload is a compact text, and no object in it names a
    member twice; so it spells the payload, and is read back as it.  What is
    flattened keeps its place: the workloads of the earlier namespaces come
    first, and then those of the same namespace that are assessed earlier. -/

namespace Courier.Payload

open Json Reader

/-! ## Reading -/

theorem containerValue_inj {a b : Container} (same : containerValue a = containerValue b) :
    a = b := by
  cases a
  cases b
  simpa [containerValue] using same

/-- A container is shown by its layout as the three members of its tree. -/
theorem shows_container : containerLayout.Shows false fun c : Container =>
    [("name", .text c.name), ("image", .text c.image), ("image_id", .text c.imageId)] where
  names _ := rfl
  distinct := by decide
  optional never := nomatch never
  sets f mem := by
    simp only [containerLayout, List.mem_cons, List.not_mem_nil, or_false] at mem
    rcases mem with rfl | rfl | rfl
    · exact reads_text.sets Container.name (by simp) (by simp [put])
    · exact reads_text.sets Container.image (by simp) (by simp [put])
    · exact reads_text.sets Container.imageId (by simp) (by simp [put])
  blank _ := rfl
  determines _ _ same := containerValue_inj (congrArg Value.object same)

theorem reads_container : containerLayout.read.Reads false containerValue :=
  shows_container.reads

theorem workloadValue_inj {a b : Workload} (same : workloadValue a = workloadValue b) :
    a = b := by
  cases a
  cases b
  simpa [workloadValue, List.map_inj_right fun _ _ => containerValue_inj, Int32.toInt_inj]
    using same

/-- A workload is shown by its layout as the five members of its tree. -/
theorem shows_workload : workloadLayout.Shows false fun w : Workload =>
    [("name", .text w.name), ("kind", .text w.kind), ("namespace", .text w.ns),
      ("replicas", .int w.replicas.toInt),
      ("containers", .list (w.containers.map containerValue))] where
  names _ := rfl
  distinct := by decide
  optional never := nomatch never
  sets f mem := by
    simp only [workloadLayout, List.mem_cons, List.not_mem_nil, or_false] at mem
    rcases mem with rfl | rfl | rfl | rfl | rfl
    · exact reads_text.sets Workload.name (by simp) (by simp [put])
    · exact reads_text.sets Workload.kind (by simp) (by simp [put])
    · exact reads_text.sets Workload.ns (by simp) (by simp [put])
    · exact reads_int32.sets Workload.replicas (by simp) (by simp [put])
    · exact reads_container.list.sets Workload.containers (by simp) (by simp [put])
  blank _ := rfl
  determines _ _ same := workloadValue_inj (congrArg Value.object same)

theorem reads_workload : workloadLayout.read.Reads false workloadValue :=
  shows_workload.reads

/-- A payload is shown by its layout as the list of its workloads. -/
theorem shows_payload : layout.Shows false fun p : Payload =>
    [("workloads", .list (p.workloads.map workloadValue))] where
  names _ := rfl
  distinct := by decide
  optional never := nomatch never
  sets f mem := by
    obtain rfl := List.mem_singleton.mp mem
    exact reads_workload.list.sets Payload.workloads (by simp) (by simp [put])
  blank _ := rfl
  determines a b same := by
    cases a
    cases b
    simpa [List.map_inj_right fun _ _ => workloadValue_inj] using same

/-! ## Writing -/

theorem distinct_container (c : Container) : (containerValue c).Distinct := by
  refine .object (show ["name", "image", "image_id"].Nodup by decide) ?_
  intro m mem
  simp only [List.mem_cons, List.not_mem_nil, or_false] at mem
  rcases mem with rfl | rfl | rfl
  · exact .text _
  · exact .text _
  · exact .text _

theorem distinct_workload (w : Workload) : (workloadValue w).Distinct := by
  refine .object
    (show ["name", "kind", "namespace", "replicas", "containers"].Nodup by decide) ?_
  intro m mem
  simp only [List.mem_cons, List.not_mem_nil, or_false] at mem
  rcases mem with rfl | rfl | rfl | rfl | rfl
  · exact .text _
  · exact .text _
  · exact .text _
  · exact .int _
  · refine .list fun v mem => ?_
    obtain ⟨c, -, rfl⟩ := List.mem_map.mp mem
    exact distinct_container c

theorem distinct_payload (p : Payload) : p.toValue.Distinct := by
  refine .object (show ["workloads"].Nodup by decide) ?_
  intro m mem
  rw [List.mem_singleton.mp mem]
  refine .list fun v mem => ?_
  obtain ⟨w, -, rfl⟩ := List.mem_map.mp mem
  exact distinct_workload w

/-- **ROUND TRIP**: the body of a payload is read back as the payload. -/
theorem ofBytes_body (p : Payload) : ofBytes (Utf8.ofString p.body) = .ok p := by
  have read := decode_of_takes
    (shows_payload.reads p _ (distinct_payload p).spells [] isSpacing_nil) isSpacing_nil
  rw [body, Utf8.ofString, Value.compress, String.toList_ofList, ofBytes]
  rwa [List.nil_append, show Utf8.encode [] = [] from rfl, List.append_nil] at read

/-! ## Flattening -/

/-- How many workloads are assessed in some namespaces. -/
def workloadCount (ns : List AssessedNamespace) : Nat :=
  (ns.flatMap AssessedNamespace.workloads).length

/-- All containers of some namespaces, in their order. -/
def containersIn (ns : List AssessedNamespace) : List Container :=
  ((ns.flatMap AssessedNamespace.workloads).flatMap AssessedWorkload.pods).flatMap Pod.containers

/-- One more namespace puts its workloads in front. -/
theorem ofReport_cons (n : AssessedNamespace) (ns : List AssessedNamespace) :
    (ofReport ⟨n :: ns⟩).workloads
      = n.workloads.map (flatten n.name) ++ (ofReport ⟨ns⟩).workloads := by
  rw [ofReport, List.flatMap_cons]
  rfl

/-- The payload of two reports in a row lists the workloads of the first, then those of the second.
    -/
theorem ofReport_append (ns ns' : List AssessedNamespace) :
    (ofReport ⟨ns ++ ns'⟩).workloads
      = (ofReport ⟨ns⟩).workloads ++ (ofReport ⟨ns'⟩).workloads := List.flatMap_append

/-- The payload has as many workloads as the report has assessments. -/
theorem length_ofReport (ns : List AssessedNamespace) :
    (ofReport ⟨ns⟩).workloads.length = workloadCount ns := by
  rw [workloadCount]
  induction ns with
  | nil => rfl
  | cons n ns ih =>
      rw [ofReport_cons, List.flatMap_cons, List.length_append, List.length_append,
        List.length_map, ih]

/-- The workloads of a namespace come behind those of the namespaces before it, in their order. -/
theorem ofReport_getElem? (ns : List AssessedNamespace) (i : Fin ns.length)
    (j : Fin ns[i].workloads.length) :
    (ofReport ⟨ns⟩).workloads[workloadCount (ns.take i) + j]?
      = some (flatten ns[i].name ns[i].workloads[j]) := by
  -- the namespaces before it, the namespace itself, and those behind it
  have split : ns = ns.take i ++ ns[i] :: ns.drop (i + 1) := by
    have behind : ns.drop i = ns[i] :: ns.drop (i + 1) := List.drop_eq_getElem_cons i.isLt
    rw [← behind, List.take_append_drop]
  have place : (ofReport ⟨ns⟩).workloads = (ofReport ⟨ns.take i⟩).workloads
      ++ (ns[i].workloads.map (flatten ns[i].name)
        ++ (ofReport ⟨ns.drop (i + 1)⟩).workloads) := by
    rw [← ofReport_cons, ← ofReport_append, ← split]
  rw [place, ← length_ofReport, List.getElem?_append_right (Nat.le_add_right _ _),
    Nat.add_sub_cancel_left, List.getElem?_append_left (by rw [List.length_map]; exact j.isLt),
    List.getElem?_map, List.getElem?_eq_getElem j.isLt]
  rfl

/-- The payload's containers are those of the report, in its order. -/
theorem containers_ofReport (ns : List AssessedNamespace) :
    (ofReport ⟨ns⟩).workloads.flatMap Workload.containers = containersIn ns := by
  have flat (name : String) (ws : List AssessedWorkload) :
      (ws.map (flatten name)).flatMap Workload.containers
        = (ws.flatMap AssessedWorkload.pods).flatMap Pod.containers := by
    rw [List.flatMap_map, List.flatMap_assoc]
    rfl
  rw [containersIn]
  induction ns with
  | nil => rfl
  | cons n ns ih =>
      rw [ofReport_cons, List.flatMap_append, flat, ih, List.flatMap_cons, List.flatMap_append,
        List.flatMap_append]

/-- **WHAT IS POSTED**: the body of a report's payload is read back as one workload for each that
    is assessed, by namespace and then by assessment; a workload keeps its name, kind and replicas,
    has the name of its namespace, and all containers of its pods one after another.  No container
    is lost or added, and the payloads of namespaces one after another stand one after another. -/
theorem body_is_report_flattened (r : Report) :
    ∃ p, ofBytes (Utf8.ofString (ofReport r).body) = .ok p ∧
      p.workloads.length = workloadCount r.namespaces ∧
      (∀ (i : Fin r.namespaces.length) (j : Fin r.namespaces[i].workloads.length),
        p.workloads[workloadCount (r.namespaces.take i) + j]? = some {
          name := r.namespaces[i].workloads[j].name
          kind := r.namespaces[i].workloads[j].kind
          ns := r.namespaces[i].name
          replicas := r.namespaces[i].workloads[j].replicas
          containers := (r.namespaces[i].workloads[j].pods.map Pod.containers).flatten }) ∧
      p.workloads.flatMap Workload.containers = containersIn r.namespaces ∧
      p.containerCount = (containersIn r.namespaces).length ∧
      ∀ more, (ofReport ⟨r.namespaces ++ more⟩).workloads
        = p.workloads ++ (ofReport ⟨more⟩).workloads := by
  refine ⟨ofReport r, ofBytes_body _, length_ofReport _, fun i j => ?_, containers_ofReport _,
    congrArg List.length (containers_ofReport _), ofReport_append _⟩
  have place := ofReport_getElem? r.namespaces i j
  rw [flatten, List.flatMap_def] at place
  exact place

end Courier.Payload
