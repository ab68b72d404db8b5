import ApiTest.Portal.ReplayRebuild
import ApiTest.Portal.TryItRoute

/-! Where the portal sends its requests. Try-It starts from the template of a route and the
replay from the path of an event, both under `/v1/`; filling in parameters, replacing the
query, and writing and reading the URL all leave the beginning of the path alone. -/

open ApiTest.Inbound

namespace ApiTest.Portal

open Text Audit Net Endpoints

theorem versioned_escape {s : GoString} (h : Versioned s) : Versioned (escape .path s) := by
  obtain ⟨rest, rfl⟩ := h
  exact ⟨escape .path rest, rfl⟩

section
variable [HostSyntax]

/-- Reading a versioned path gives a URL without a host, whose path is versioned as it is
sent. -/
theorem versioned_of_parse {s : GoString} (h : Versioned s) {u : URL} (hu : parse s = some u) :
    u.Local ∧ Versioned u.escapedPath := by
  obtain ⟨-, path, hpath, fragment, -, rfl⟩ := (parse_rooted h.rooted).mp hu
  have hcut : Versioned (cut question (cut hash s).1).1 :=
    (h.cut (show hash ≠ slash by decide) (by decide)).cut (show question ≠ slash by decide) (by decide)
  have hversioned : Versioned path := hcut.unescape hpath
  refine ⟨local_of_parse h.rooted hu hversioned.rooted, ?_⟩
  have hstar : path ≠ lit "*" := by
    obtain ⟨rest, rfl⟩ := hversioned
    intro hstar
    exact absurd (congrArg List.head? hstar) (show some slash ≠ (lit "*").head? by decide)
  unfold URL.escapedPath
  dsimp only
  rw [if_neg hstar]
  by_cases hdefault : (cut question (cut hash s).1).1 = escape .path path
  · simp only [if_pos hdefault]
    exact versioned_escape hversioned
  · simp only [if_neg hdefault]
    split_ifs
    · exact hcut
    · exact versioned_escape hversioned

/-- So it is after the query has been replaced and the URL written and read again. -/
theorem versioned_of_rewritten {s : GoString} (h : Versioned s) {u v : URL} (hu : parse s = some u)
    (rawQuery : GoString) (hv : parse ({ u with rawQuery } : URL).string = some v) :
    Versioned v.escapedPath := by
  obtain ⟨hlocal, rest, hrest⟩ := versioned_of_parse h hu
  have hstring : Versioned ({ u with rawQuery } : URL).string := by
    rw [URL.string_eq (hlocal.withQuery rawQuery)]
    exact ⟨_, congrArg (· ++ _ ++ _) hrest⟩
  exact (versioned_of_parse hstring hv).2

end

/-- A template under `/v1/` stays there. -/
theorem versioned_of_substituted {template path : GoString} {params : List (GoString × GoString)}
    (htemplate : lit "/v1/" <+: template) (h : substitutePathParams template params = .ok path) :
    Versioned path := by
  obtain ⟨rest, rfl⟩ := htemplate
  have hfront := substituteFrom_append params (show openBrace ∉ lit "/v1/" by decide) rest.length rest
  rw [← List.length_append] at hfront
  simp only [substitutePathParams, hfront] at h
  split_ifs at h
  cases h
  exact ⟨_, rfl⟩

variable [UnicodeCase] [HostSyntax]

theorem versioned_of_dispatchTryIt {registry : Registry} {operator : Option Auth.Identity}
    {group route : GoString} {decoded : Option TryItRequest} {r : OutRequest}
    (hv1 : ∀ e ∈ registry.flat, lit "/v1/" <+: e.endpoint.path)
    (h : dispatchTryIt true (some registry) operator group route decoded = .ok r) :
    Versioned r.url.escapedPath := by
  obtain ⟨endpoint, req, path, u, hroute, -, htried⟩ := dispatchTryIt_eq_ok h
  obtain ⟨e, he, rfl⟩ := Option.map_eq_some_iff.mp hroute
  have hpath := versioned_of_substituted (hv1 e (List.mem_of_find?_eq_some he)) htried.substituted
  obtain ⟨w, hw, hu⟩ := Option.map_eq_some_iff.mp htried.tryItURL
  have hurl := htried.url
  rw [← hu] at hurl
  split_ifs at hurl
  · exact versioned_of_rewritten hpath hw _ hurl
  · exact versioned_of_rewritten hpath hw w.rawQuery hurl

theorem versioned_of_auditReplay [UUIDSyntax] {store : PayloadStore}
    {operator : Option Auth.Identity} {rawID id : GoString} {r : OutRequest}
    (h : auditReplay true store operator rawID = .ok (id, r)) : Versioned r.url.escapedPath := by
  obtain ⟨-, ev, payload, -, hv1, hrebuild⟩ := auditReplay_eq_ok h
  obtain ⟨u, header, hrebuilt⟩ := rebuilt_of_rebuild hrebuild
  obtain ⟨w, hw, hu⟩ := Option.map_eq_some_iff.mp hrebuilt.replayURL
  have hpath := versioned_of_v1 hv1
  have hurl := hrebuilt.url
  rw [← hu] at hurl
  split_ifs at hurl
  · exact versioned_of_rewritten hpath hw _ hurl
  · exact versioned_of_rewritten hpath hw w.rawQuery hurl

end ApiTest.Portal
