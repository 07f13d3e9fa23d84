import Courier.Proofs.Url.Percent
import Courier.Telemetry.Export
import Courier.Text.Blank

/-! # Telemetry addresses — one URL for each cluster

    The name of a cluster is one segment of the URL that its reports are
    posted to.  A segment of one or two dots is left out, and tabs and line
    breaks in it are dropped; every other name is written so that it can be
    read back, and so different clusters have different URLs. -/

namespace Courier.Export

open Url

/-! ## Segments -/

/-- A segment that a path takes as it is: not one or two dots, no tab and no line break. -/
structure IsWhole (segment : List Char) : Prop where
  notHere : segment ≠ ['.']
  notParent : segment ≠ ['.', '.']
  kept : segment.any isDropped = false

/-- The segments of a path but for an empty one at the end. -/
def stem (list : List String) : List String :=
  if list.getLast? = some "" then list.dropLast else list

/-- The segments that new ones are put behind: those of the stem, unless it is but an empty one. -/
def trunk (list : List String) : List String := if stem list = [""] then [] else stem list

/-- The characters that are encoded in the segments of a URL. -/
def encodedIn (scheme : String) : List Char :=
  if isSpecial scheme then specialSegmentSet else segmentSet

theorem mem_encodedIn {c : Char} (h : c ∈ segmentSet) (scheme : String) : c ∈ encodedIn scheme := by
  rw [encodedIn]
  split
  · exact List.mem_append_left _ h
  · exact h

/-- A whole segment is added to a path in one piece. -/
theorem extend_of_isWhole {segment : List Char} (whole : IsWhole segment) (scheme : String)
    (path : List String) :
    extend scheme path segment
      = Url.append path (String.ofList (Url.encode (encodedIn scheme) segment)) := by
  have all : segment.filter (fun c => !isDropped c) = segment := by
    refine List.filter_eq_self.mpr fun c mem => ?_
    rw [Bool.eq_false_iff.mpr (List.any_eq_false.mp whole.kept c mem)]
    rfl
  rw [extend, if_neg (not_or.mpr ⟨whole.notHere, whole.notParent⟩)]
  dsimp only
  rw [all, if_neg whole.notHere, if_neg whole.notParent]
  rfl

theorem append_of_ne {path : List String} (h : path ≠ [""]) (segment : String) :
    Url.append path segment = path ++ [segment] := if_neg h

/-- A segment behind a stem takes the place of an empty last segment. -/
theorem append_stem (list : List String) (segment : String) :
    Url.append (stem list) segment = trunk list ++ [segment] := by
  rw [Url.append, trunk]
  split
  · rfl
  · rfl

/-- The fixed segments are whole, and written as they are. -/
theorem extend_fixed {segment : String} (fixed : segment ∈ ["v1", "clusters", "telemetry"])
    (scheme : String) (path : List String) :
    extend scheme path segment.toList = Url.append path segment := by
  have whole : IsWhole segment.toList ∧ ∀ set ∈ [segmentSet, specialSegmentSet],
      String.ofList (Url.encode set segment.toList) = segment := by
    simp only [List.mem_cons, List.not_mem_nil, or_false] at fixed
    rcases fixed with rfl | rfl | rfl
    · exact ⟨⟨by decide, by decide, by decide⟩, by decide⟩
    · exact ⟨⟨by decide, by decide, by decide⟩, by decide⟩
    · exact ⟨⟨by decide, by decide, by decide⟩, by decide⟩
  have same : String.ofList (Url.encode (encodedIn scheme) segment.toList) = segment := by
    rw [encodedIn]
    split
    · exact whole.2 specialSegmentSet (by simp)
    · exact whole.2 segmentSet (by simp)
  rw [extend_of_isWhole whole.1, same]

/-- A path that ends in a segment that is not empty is not that of the root. -/
theorem ne_root {path : List String} {segment : String} (h : segment ≠ "") :
    path ++ [segment] ≠ [""] := by
  intro root
  have last := congrArg List.getLast? root
  rw [List.getLast?_concat] at last
  exact h (Option.some.inj last)

/-- A path of two segments or more is not that of the root. -/
theorem ne_root_of_two (path : List String) (one two : String) : path ++ [one] ++ [two] ≠ [""] := by
  intro root
  have length := congrArg List.length root
  rw [List.length_append, List.length_append] at length
  exact absurd length (by simp)

/-- The URL with the segments of a cluster behind the trunk of its path. -/
def clusterUrl (u : Url) (list : List String) (segment : String) : Url :=
  { u with path := .segments (trunk list ++ ["v1", "clusters", segment, "telemetry"]) }

/-- The telemetry URL of a whole name is the one of its encoding. -/
theorem telemetryUrl_of_isWhole {u : Url} {list : List String} (based : u.path = .segments list)
    {id : String} (whole : IsWhole id.toList) :
    telemetryUrl u id = .ok (clusterUrl u list
      (String.ofList (Url.encode (encodedIn u.scheme) id.toList))) := by
  have path : (segments id).foldl (fun path s => extend u.scheme path s.toList) (stem list)
      = trunk list ++ ["v1", "clusters",
        String.ofList (Url.encode (encodedIn u.scheme) id.toList), "telemetry"] := by
    -- one segment after the other; only the first one can meet the path of the root
    have first := extend_fixed (show "v1" ∈ _ by simp) u.scheme (stem list)
    have second := extend_fixed (show "clusters" ∈ _ by simp) u.scheme (trunk list ++ ["v1"])
    have third := extend_of_isWhole whole u.scheme (trunk list ++ ["v1"] ++ ["clusters"])
    have fourth := extend_fixed (show "telemetry" ∈ _ by simp) u.scheme
      (trunk list ++ ["v1"] ++ ["clusters"]
        ++ [String.ofList (Url.encode (encodedIn u.scheme) id.toList)])
    rw [append_stem] at first
    rw [append_of_ne (ne_root (by decide))] at second third
    rw [append_of_ne (ne_root_of_two (trunk list ++ ["v1"]) _ _)] at fourth
    simp only [segments, List.foldl_cons, List.foldl_nil]
    rw [first, second, third, fourth]
    simp only [List.append_assoc, List.cons_append, List.nil_append]
  rw [telemetryUrl, extended, based]
  dsimp only
  rw [← stem, path]
  rfl

/-! ## Texts -/

/-- In the text of the URL, what stands around the segment of the cluster does not depend on it. -/
theorem text_clusterUrl (u : Url) (list : List String) : ∃ front back : String, ∀ segment,
    (clusterUrl u list segment).text = front ++ segment ++ back := by
  -- the mark in front of a path depends on the first segment, which is not the cluster's
  have marked : ∃ mark : String, ∀ segment, (clusterUrl u list segment).pathText
      = mark ++ (clusterUrl u list segment).path.text := by
    cases host : u.host with
    | some host => exact ⟨"", fun segment => by simp [pathText, clusterUrl, host]⟩
    | none =>
        cases found : trunk list with
        | nil => exact ⟨"", fun segment => by simp [pathText, clusterUrl, host, found]⟩
        | cons first rest =>
            by_cases empty : first = ""
            · refine ⟨"/.", fun segment => ?_⟩
              cases rest with
              | nil => simp [pathText, clusterUrl, host, found, empty]
              | cons => simp [pathText, clusterUrl, host, found, empty]
            · exact ⟨"", fun segment => by simp [pathText, clusterUrl, host, found, empty]⟩
  have path (segment : String) : (clusterUrl u list segment).path.text
      = (Path.segments (trunk list ++ ["v1", "clusters"])).text ++ ("/" ++ segment)
        ++ ("/" ++ "telemetry") := by
    simp only [clusterUrl, Path.text, List.map_append, String.join_append, List.map_cons,
      List.map_nil, String.join_cons, String.join_nil, String.append_empty, String.append_assoc]
  obtain ⟨mark, same⟩ := marked
  obtain ⟨origin, tail, form⟩ : ∃ origin tail : String, ∀ segment,
      (clusterUrl u list segment).text
        = origin ++ (clusterUrl u list segment).pathText ++ tail := by
    refine ⟨u.scheme ++ ":" ++ u.host.elim ""
        (fun host => "//" ++ u.credentialsText ++ host ++ u.portText),
      u.query.elim "" ("?" ++ ·) ++ u.fragment.elim "" ("#" ++ ·), fun segment => ?_⟩
    rw [Url.text, ← String.append_assoc]
    cases u with
    | mk scheme username password host port path query fragment =>
        cases host <;> cases query <;> cases fragment <;> rfl
  refine ⟨origin ++ mark ++ (Path.segments (trunk list ++ ["v1", "clusters"])).text ++ "/",
    "/" ++ "telemetry" ++ tail, fun segment => ?_⟩
  rw [form, same, path]
  simp only [String.append_assoc]

/-! ## Clusters -/

/-- The segment of a cluster is read back as its name, and holds nothing that ends a segment. -/
theorem decodeBytes_segment (scheme id : String) :
    decodeBytes (Utf8.ofString (String.ofList (Url.encode (encodedIn scheme) id.toList)))
      = Utf8.ofString id := by
  rw [Utf8.ofString, String.toList_ofList]
  exact decodeBytes_encode (mem_encodedIn (by decide) scheme) id.toList

/-- A name that is encoded as a segment has no character in it that would end the segment. -/
theorem not_mem_segment {c : Char} (ends : c ∈ ['/', '?', '#']) (scheme id : String) :
    c ∉ (String.ofList (Url.encode (encodedIn scheme) id.toList)).toList := by
  have plain : c ∈ segmentSet ∧ c ≠ '%' ∧ ∀ n < 16, upperHex n ≠ c := by
    simp only [List.mem_cons, List.not_mem_nil, or_false] at ends
    rcases ends with rfl | rfl | rfl
    · decide
    · decide
    · decide
  obtain ⟨inside, percent, digit⟩ := plain
  rw [String.toList_ofList]
  exact not_mem_encode (mem_encodedIn inside scheme) percent digit id.toList

/-- **ONE URL FOR EACH CLUSTER**: behind the segments of the base, less an empty one at the end,
    stand `v1`, `clusters`, one segment from which the name of the cluster is read back, and
    `telemetry`; nothing else of the base changes, and another cluster has another URL.  The trunk
    of a path of two slashes is empty, so that one of them is lost. -/
theorem telemetryUrl_keeps_cluster (u : Url) (list : List String)
    (based : u.path = .segments list) (id : String) (whole : IsWhole id.toList) :
    ∃ segment, telemetryUrl u id = .ok { u with
        path := .segments (trunk list ++ ["v1", "clusters", segment, "telemetry"]) } ∧
      decodeBytes (Utf8.ofString segment) = Utf8.ofString id ∧
      (∀ c ∈ ['/', '?', '#'], c ∉ segment.toList) ∧
      ∀ other, IsWhole other.toList → other ≠ id →
        (telemetryUrl u other).map Url.text ≠ (telemetryUrl u id).map Url.text := by
  have url {id : String} (whole : IsWhole id.toList) := telemetryUrl_of_isWhole based whole
  refine ⟨_, url whole, decodeBytes_segment u.scheme id,
    fun c ends => not_mem_segment ends u.scheme id, ?_⟩
  intro other whole' differ same
  -- two equal texts differ at most in the segments, and these are read back as the names
  obtain ⟨front, back, text⟩ := text_clusterUrl u list
  rw [url whole, url whole'] at same
  have texts := Except.ok.inj same
  rw [text, text, String.append_left_inj, String.append_right_inj] at texts
  have bytes := decodeBytes_segment u.scheme other
  rw [texts, decodeBytes_segment] at bytes
  exact differ (String.toList_inj.mp (Utf8.encode_inj bytes).symm)

/-- A name with a character that is encoded, behind a path that ends in a slash. -/
theorem telemetryUrl_keeps_cluster_with_slash :
    ∃ segment, telemetryUrl { scheme := "https", host := some "h", path := .segments ["a", ""] }
        "c/1" = .ok {
          scheme := "https"
          host := some "h"
          path := .segments ["a", "v1", "clusters", segment, "telemetry"] } ∧
      decodeBytes (Utf8.ofString segment) = Utf8.ofString "c/1" := by
  obtain ⟨segment, url, decoded, -⟩ := telemetryUrl_keeps_cluster
    { scheme := "https", host := some "h", path := .segments ["a", ""] } ["a", ""] rfl
    "c/1" ⟨by decide, by decide, by decide⟩
  exact ⟨segment, url, decoded⟩

/-- Names that a path does not take as they are: a tab is dropped, so that two clusters have one
    URL, and a dot is left out with its segment. -/
theorem telemetryUrl_loses_cluster :
    Text.isAllBlank "a\tb" = false ∧ Text.isAllBlank "ab" = false ∧
      Text.isAllBlank "." = false ∧
      telemetryUrl { scheme := "https", host := some "h", path := .segments [""] } "a\tb"
        = telemetryUrl { scheme := "https", host := some "h", path := .segments [""] } "ab" ∧
      telemetryUrl { scheme := "https", host := some "h", path := .segments [""] } "."
        = .ok {
          scheme := "https"
          host := some "h"
          path := .segments ["v1", "clusters", "telemetry"] } := by
  refine ⟨by decide, by decide, by decide, ?_, ?_⟩
  · rfl
  · rfl

end Courier.Export
