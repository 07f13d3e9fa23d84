import Courier.Delivery.Run
import Courier.Proofs.Json.Compact
import Courier.Proofs.Json.Record

/-! # Assessment reports — every text that spells a report is read as it

    Each record of a report has a layout, and the layout shows the record
    as the members of an object.  So the reading of a report is put together
    from that of its records, from the containers outward: each layout
    passes over what it does not know, takes its members in any order, and
    gives those that are missing the value of a blank record. -/

namespace Courier.Report

open Json Reader

variable {omits : Bool}

/-! ## Containers and pods -/

theorem containerValue_inj {a b : Container} (same : containerValue a = containerValue b) :
    a = b := by
  cases a
  cases b
  simpa [containerValue] using same

/-- A container is shown by its layout, its members empty or left out where they may be. -/
theorem shows_container : containerLayout.Shows omits fun c : Container =>
    [("name", .text c.name), ("image", .text c.image), ("imageID", .text c.imageId)] where
  names _ := rfl
  distinct := by decide
  optional _ := by simp [containerLayout, field]
  sets f mem := by
    simp only [containerLayout, List.mem_cons, List.not_mem_nil, or_false] at mem
    rcases mem with rfl | rfl | rfl
    · exact reads_text.sets Container.name (by simp) (by simp [put])
    · exact reads_text.sets Container.image (by simp) (by simp [put])
    · exact reads_text.sets Container.imageId (by simp) (by simp [put])
  blank _ := rfl
  determines _ _ same := containerValue_inj (congrArg Value.object same)

theorem reads_container : containerLayout.read.Reads omits containerValue :=
  shows_container.reads

theorem podValue_inj {a b : Pod} (same : podValue a = podValue b) : a = b := by
  cases a
  cases b
  simpa [podValue, List.map_inj_right fun _ _ => containerValue_inj] using same

/-- A pod is shown by its layout as the list of its containers. -/
theorem shows_pod : podLayout.Shows omits fun p : Pod =>
    [("containers", .list (p.containers.map containerValue))] where
  names _ := rfl
  distinct := by decide
  optional _ := by simp [podLayout, field]
  sets f mem := by
    obtain rfl := List.mem_singleton.mp mem
    exact reads_container.list.sets Pod.containers (by simp) (by simp [put])
  blank _ := rfl
  determines _ _ same := podValue_inj (congrArg Value.object same)

theorem reads_pod : podLayout.read.Reads omits podValue := shows_pod.reads

/-! ## Workloads -/

/-- The members of a workload, without the record around it. -/
def workloadMembers (w : AssessedWorkload) : List (String × Value) :=
  [("name", .text w.name), ("kind", .text w.kind), ("replicas", .int w.replicas.toInt),
    ("pods", .list (w.pods.map podValue))]

/-- Assessed workloads with the same members are one workload. -/
theorem workloadMembers_inj {a b : AssessedWorkload}
    (same : workloadMembers a = workloadMembers b) : a = b := by
  cases a
  cases b
  simpa [workloadMembers, List.map_inj_right fun _ _ => podValue_inj, Int32.toInt_inj]
    using same

theorem shows_workload : workloadLayout.Shows omits workloadMembers where
  names _ := rfl
  distinct := by decide
  optional _ := by simp [workloadLayout, field]
  sets f mem := by
    simp only [workloadLayout, List.mem_cons, List.not_mem_nil, or_false] at mem
    rcases mem with rfl | rfl | rfl | rfl
    · exact reads_text.sets AssessedWorkload.name (by simp [workloadMembers])
        (by simp [put, workloadMembers])
    · exact reads_text.sets AssessedWorkload.kind (by simp [workloadMembers])
        (by simp [put, workloadMembers])
    · exact reads_int32.sets AssessedWorkload.replicas (by simp [workloadMembers])
        (by simp [put, workloadMembers])
    · exact reads_pod.list.sets AssessedWorkload.pods (by simp [workloadMembers])
        (by simp [put, workloadMembers])
  blank _ := rfl
  determines _ _ same := workloadMembers_inj same

theorem reads_workload : workloadLayout.read.Reads omits fun w => .object (workloadMembers w) :=
  shows_workload.reads

theorem workloadValue_inj {a b : AssessedWorkload} (same : workloadValue a = workloadValue b) :
    a = b := by
  refine workloadMembers_inj ?_
  simpa [workloadValue, workloadMembers] using same

/-- An assessment is shown as the one member that holds its workload. -/
theorem shows_assessment : assessmentLayout.Shows omits fun w =>
    [("workload", .object (workloadMembers w))] where
  names _ := rfl
  distinct := by decide
  optional _ := by simp [assessmentLayout, field]
  sets f mem := by
    obtain rfl := List.mem_singleton.mp mem
    exact reads_workload.sets id (by simp) (by simp [put])
  blank _ := rfl
  determines _ _ same := workloadValue_inj (congrArg Value.object same)

theorem reads_assessment : assessmentLayout.read.Reads omits workloadValue :=
  shows_assessment.reads

/-! ## Namespaces -/

/-- The name of a namespace is shown as the one member of its record. -/
theorem shows_namespaceName : namespaceNameLayout.Shows omits fun s => [("name", .text s)] where
  names _ := rfl
  distinct := by decide
  optional _ := by simp [namespaceNameLayout, field]
  sets f mem := by
    obtain rfl := List.mem_singleton.mp mem
    exact reads_text.sets id (by simp) (by simp [put])
  blank _ := rfl
  determines a b same := by simpa using same

/-- Namespaces with one tree are one namespace. -/
theorem namespaceValue_inj {a b : AssessedNamespace}
    (same : namespaceValue a = namespaceValue b) : a = b := by
  cases a
  cases b
  simpa [namespaceValue, List.map_inj_right fun _ _ => workloadValue_inj] using same

/-- A namespace is shown as its name's record and the list of its assessments. -/
theorem shows_namespace : namespaceLayout.Shows omits fun n : AssessedNamespace =>
    [("namespace", .object [("name", .text n.name)]),
      ("workloadAssessments", .list (n.workloads.map workloadValue))] where
  names _ := rfl
  distinct := by decide
  optional _ := by simp [namespaceLayout, field]
  sets f mem := by
    simp only [namespaceLayout, List.mem_cons, List.not_mem_nil, or_false] at mem
    rcases mem with rfl | rfl
    · exact shows_namespaceName.reads.sets AssessedNamespace.name (by simp) (by simp [put])
    · exact reads_assessment.list.sets AssessedNamespace.workloads (by simp) (by simp [put])
  blank _ := rfl
  determines _ _ same := namespaceValue_inj (congrArg Value.object same)

theorem reads_namespace : namespaceLayout.read.Reads omits namespaceValue :=
  shows_namespace.reads

/-! ## Reports -/

theorem toValue_inj {a b : Report} (same : toValue a = toValue b) : a = b := by
  cases a
  cases b
  simpa [toValue, List.map_inj_right fun _ _ => namespaceValue_inj] using same

/-- The members of the record around the namespaces. -/
def specMembers (r : Report) : List (String × Value) :=
  [("namespaceAssessments", .list (r.namespaces.map namespaceValue))]

theorem shows_spec : specLayout.Shows omits specMembers where
  names _ := rfl
  distinct := by decide
  optional _ := by simp [specLayout, field]
  sets f mem := by
    obtain rfl := List.mem_singleton.mp mem
    exact reads_namespace.list.sets Report.namespaces (by simp [specMembers])
      (by simp [put, specMembers])
  blank _ := rfl
  determines a b same := toValue_inj (by rw [toValue, toValue, ← specMembers, ← specMembers, same])

/-- A report is shown as the one member that holds its `spec`. -/
theorem shows_report : layout.Shows omits fun r => [("spec", .object (specMembers r))] where
  names _ := rfl
  distinct := by decide
  optional _ := by simp [layout, field]
  sets f mem := by
    obtain rfl := List.mem_singleton.mp mem
    exact shows_spec.reads.sets id (by simp) (by simp [put])
  blank _ := rfl
  determines _ _ same := toValue_inj (congrArg Value.object same)

theorem reads_report : layout.read.Reads omits toValue := shows_report.reads

/-- Whatever spells a report, with white space around it, decodes to the report. -/
theorem ofBytes_of_spells {r : Report} {before cs after : List Char}
    (spaceBefore : IsSpacing before) (spaceAfter : IsSpacing after)
    (spelled : Spells true r.toValue cs) :
    ofBytes (Utf8.encode (before ++ (cs ++ after))) = .ok r := by
  have read := decode_of_takes (reads_report r cs spelled before spaceBefore) spaceAfter
  rwa [← Utf8.encode_append, List.append_assoc] at read

/-- **REPORTS**: from a file with any text that spells a report, that report is read: whatever the
    order of its members, whatever stands beside them at any level, whether or not those that hold
    nothing are there, and however the texts and the space between the tokens are written. -/
theorem report_of_spelling (s : Delivery.Surroundings) (settings : Settings) (r : Report)
    (before cs after : List Char) (spaceBefore : IsSpacing before)
    (spaceAfter : IsSpacing after) (spelled : Spells true r.toValue cs)
    (file : s.file (s.reportPath settings) = .ok (Utf8.encode (before ++ (cs ++ after)))) :
    s.report settings = .ok r := by
  rw [Delivery.Surroundings.report, file]
  dsimp only
  rw [ofBytes_of_spells spaceBefore spaceAfter spelled]
  rfl

/-- A report whose text has an unknown member first, another order, an escape, white space at both
    ends, and no member that holds nothing. -/
theorem report_of_spelling_shuffled :
    Delivery.Surroundings.report {
      file := fun _ => .ok (Utf8.ofString (" \x7b\"spec\":\x7b\"kind\":[null],"
        ++ "\"namespaceAssessments\":[\x7b\"workloadAssessments\":"
        ++ "[\x7b\"workload\":\x7b\"replicas\":-1\x7d\x7d],"
        ++ "\"namespace\":\x7b\"name\":\"\\u006e\"\x7d\x7d]\x7d\x7d\n"))
      environment := [], arguments := [], database := fun _ => .ok {}
      clock := fun _ => { secs := 0, nanos := 0 }, issuer := fun _ _ => .error ""
      telemetry := fun _ => .error "" } {}
      = .ok ⟨[{ name := "n", workloads := [{ replicas := -1 }] }]⟩ := by
  -- from the inside out: the name, the workload, the namespace around both, and the record
  have hex : IsHex 'n'.toNat ['0', '0', '6', 'e'] :=
    IsHex.digits (i := 0) (j := 0) (k := 6) (l := 14) rfl rfl rfl rfl
  have chars : CharsForm ['n'] ['\\', 'u', '0', '0', '6', 'e'] := .cons (.number hex) .nil
  have name : Spells true (.object [("name", .text "n")]) _ :=
    spells_member List.mem_cons_self (.text ⟨_, chars, rfl⟩) (by simp)
  have replicas : ("replicas", Value.int (-1)) ∈ workloadMembers { replicas := -1 } := by
    simp [workloadMembers]
  have workload := @spells_member true _ _ _ _ replicas (.int (-1))
    (by simp [workloadMembers, Value.emptied])
  have assessment : Spells true (workloadValue { replicas := -1 }) _ :=
    spells_member List.mem_cons_self workload (by simp)
  have assessments := spells_item assessment
  have both := @spells_of_fits true [("namespace", .object [("name", .text "n")]),
      ("workloadAssessments", .list [workloadValue { replicas := -1 }])] []
    [bareEntry "workloadAssessments" (.list [workloadValue { replicas := -1 }]) _,
      bareEntry "namespace" (.object [("name", .text "n")]) _]
    (by
      intro e mem
      simp only [List.mem_cons, List.not_mem_nil, or_false] at mem
      rcases mem with rfl | rfl
      · exact bareEntry_fits (by simp) assessments
      · exact bareEntry_fits (by simp) name)
    (by simp [bareEntry]) (by simp [bareEntry]) isSpacing_nil
  have namespaces := spells_item (v := namespaceValue ⟨"n", [{ replicas := -1 }]⟩) both
  have unknown : IsValue (bracketed '[' ']' [] ([bare ['n', 'u', 'l', 'l']].map Spaced.chars)) :=
    .list isSpacing_nil (by simp [bare_isSpaced])
      (by simpa [bare] using IsValue.word (by decide))
  have spec := @spells_of_fits true (specMembers ⟨[⟨"n", [{ replicas := -1 }]⟩]⟩) []
    [besideEntry "kind" ['[', 'n', 'u', 'l', 'l', ']'],
      bareEntry "namespaceAssessments" (.list [namespaceValue ⟨"n", [{ replicas := -1 }]⟩]) _]
    (by
      intro e mem
      simp only [List.mem_cons, List.not_mem_nil, or_false] at mem
      rcases mem with rfl | rfl
      · exact besideEntry_fits (by simp [specMembers]) unknown
      · exact bareEntry_fits (by simp [specMembers]) namespaces)
    (by simp [besideEntry, bareEntry]) (by simp [bareEntry, specMembers]) isSpacing_nil
  have report : Spells true (toValue ⟨[⟨"n", [{ replicas := -1 }]⟩]⟩) _ :=
    spells_member List.mem_cons_self spec (by simp)
  refine report_of_spelling _ _ _ [' '] _ ['\n'] (by decide) (by decide) report ?_
  decide +kernel

end Courier.Report
