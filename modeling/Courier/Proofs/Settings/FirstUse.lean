import Courier.Delivery.Run
import Courier.Proofs.Secret.Mounted

/-! # First uses — what settings alone decide

    Two uses of the settings can fail for no reason but the settings: the
    address of the secret is made a path, and the name of the cluster is put
    behind the URL of the endpoint.  The first asks for three single names, the
    second for a URL whose path has segments.  Validity asks for neither, so
    valid settings may fail at their first use. -/

namespace Courier

namespace Export

/-- A URL takes the segments of a cluster exactly if its path has segments. -/
theorem telemetryUrl_eq_ok_iff (apiUrl : Url) (clusterId : String) :
    (∃ url, telemetryUrl apiUrl clusterId = .ok url) ↔ ∃ list, apiUrl.path = .segments list := by
  rw [telemetryUrl, Url.extended]
  cases apiUrl.path with
  | bare text =>
      exact iff_of_false (fun ⟨url, same⟩ => nomatch same) fun ⟨list, same⟩ => nomatch same
  | segments list => exact iff_of_true ⟨_, rfl⟩ ⟨list, rfl⟩

/-- Every other URL is refused for want of segments. -/
theorem telemetryUrl_eq_error_iff (apiUrl : Url) (clusterId : String) :
    telemetryUrl apiUrl clusterId = .error (.badUrl .noSegments) ↔
      ∃ text, apiUrl.path = .bare text := by
  rw [telemetryUrl, Url.extended]
  cases apiUrl.path with
  | bare text => exact iff_of_true rfl ⟨text, rfl⟩
  | segments list => exact iff_of_false (fun same => nomatch same) fun ⟨text, same⟩ => nomatch same

end Export

namespace Settings

open Delivery

/-- What the first uses of settings ask for. -/
structure IsServiceable (s : Settings) : Prop where
  namespaced : Path.IsSingle s.auth.secretNamespace
  named : Path.IsSingle s.auth.secretName
  keyed : Path.IsSingle s.auth.secretKey
  based : ∃ list, s.governor.apiUrl.path = .segments list

/-- The secret's address is made of single segments when each part of it is one. -/
theorem isSingle_segments_iff (auth : AuthSettings) :
    (∀ segment ∈ (secretRef auth).segments, Path.IsSingle segment) ↔
      Path.IsSingle auth.secretNamespace ∧ Path.IsSingle auth.secretName ∧
        Path.IsSingle auth.secretKey := by
  simp only [SecretRef.segments, secretRef, List.forall_mem_cons, List.not_mem_nil,
    false_implies, implies_true, and_true]

/-- **FIRST USES**: of valid settings as of any others, the path of the secret and the URL for the
    reports are both built exactly if namespace, name and key of the secret are single names and
    the path of the endpoint's URL has segments.  An address with another segment is refused as not
    plain, and another URL for want of segments. -/
theorem first_uses_succeed_iff (s : Settings) :
    let secretPath := (secretRef s.auth).path s.auth.secretRoot
    let reportUrl := Export.telemetryUrl s.governor.apiUrl s.governor.clusterId
    ((∃ path, secretPath = .ok path) ∧ (∃ url, reportUrl = .ok url) ↔ s.IsServiceable) ∧
      (secretPath = .error .notPlain ↔
        ∃ segment ∈ [s.auth.secretNamespace, s.auth.secretName, s.auth.secretKey],
          ¬Path.IsSingle segment) ∧
      (reportUrl = .error (.badUrl .noSegments) ↔ ∃ text, s.governor.apiUrl.path = .bare text) := by
  intro secretPath reportUrl
  refine ⟨?_, SecretRef.path_eq_error_iff _ (secretRef s.auth),
    Export.telemetryUrl_eq_error_iff _ _⟩
  rw [SecretRef.path_eq_ok_iff, Export.telemetryUrl_eq_ok_iff, isSingle_segments_iff]
  constructor
  · rintro ⟨⟨namespaced, named, keyed⟩, based⟩
    exact ⟨namespaced, named, keyed, based⟩
  · rintro ⟨namespaced, named, keyed, based⟩
    exact ⟨⟨namespaced, named, keyed⟩, based⟩

/-- Settings with two names for the secret, and a URL of a mailbox. -/
def unserviceable : Settings where
  auth := { secretName := "team/governor" }
  governor := {
    apiUrl := { scheme := "mailto", path := .bare "ops@example.com" }
    clusterId := "c-1" }

/-- Valid settings fail at their first uses, for no other reason than the settings. -/
theorem valid_settings_fail_first_use :
    unserviceable.flaw? = none ∧
      (secretRef unserviceable.auth).path unserviceable.auth.secretRoot = .error .notPlain ∧
      Export.telemetryUrl unserviceable.governor.apiUrl unserviceable.governor.clusterId
        = .error (.badUrl .noSegments) := by
  have slash : (secretRef unserviceable.auth).segments.all Path.isPlain = false := by decide
  refine ⟨by decide, ?_, rfl⟩
  rw [SecretRef.path, slash]
  rfl

end Settings

end Courier
