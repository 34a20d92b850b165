import NeutralSchema.Proofs.Service.Url

/-!
# The endpoint below a URL

No segment of the path that a service is configured with is lost on the way to its endpoint, and
none is replaced. Main statement: `endpointUnder_below`.
-/
namespace NeutralSchema.Service

open Address

/-- The scheme of an absolute URL. -/
def Address.scheme : Address → String
  | .web u => u.scheme.name
  | .foreign name => name

namespace Url

variable {u : Url}

/-- The path that a closed URL has. -/
theorem path_closed (written : u.HasPath) : u.closed.path
    = if u.path.toList.getLast? = some '/' then u.path else u.path ++ "/" := by
  rw [closed]
  split
  case isTrue => rfl
  case isFalse =>
    rw [setPath_path written]
    simp [path, String.join_append]

theorem closed_eq (written : u.HasPath) :
    u.closed = { u with segments := directory u.segments ++ [""] } := by
  rw [closed, directory]
  by_cases slash : u.path.toList.getLast? = some '/'
  · have last := (path_endsInSlash_iff written).mp slash
    rw [if_pos slash, if_pos last, List.dropLast_append_getLast? _ last]
  · have open_ := (path_endsInSlash_iff written).not.mp slash
    rw [if_neg slash, if_neg open_, setPath_path written]

/-- A name takes the place of the last segment. -/
theorem join_endpointName : u.join endpointName
    = { u with
        segments := u.segments.dropLast ++ [endpointName], query := none, fragment := none } := by
  have plain : Tail.read (strip endpointName.toList) = ⟨endpointName.toList, none, none⟩ := rfl
  have single : splitSegments (withoutSlash endpointName.toList) = [endpointName.toList] := rfl
  have segment : ∀ s ∈ [endpointName.toList], IsSegment s := by
    simp only [List.mem_singleton, forall_eq]
    exact ⟨List.all_eq_true.mp rfl, by decide, by decide⟩
  rw [join, plain]
  dsimp only
  rw [readPath, single, follow_of_isSegment segment]
  simp

/-- The endpoint of a URL is its name in the directory of the URL. -/
theorem endpoint_eq (written : u.HasPath) : u.endpoint
    = { u with
        segments := directory u.segments ++ [endpointName], query := none, fragment := none } := by
  rw [endpoint, join_endpointName, closed_eq written, List.dropLast_concat]

theorem path_endpoint (written : u.HasPath) :
    u.endpoint.path = u.closed.path ++ endpointName := by
  rw [endpoint_eq written, closed_eq written]
  simp [path, String.join_append, String.append_assoc]

end Url

/-- A directory leaves out an empty last segment at most. -/
theorem eq_directory_or (segments : List String) :
    segments = directory segments ∨ segments = directory segments ++ [""] := by
  rw [directory]
  split
  case isTrue last => exact .inr (List.dropLast_append_getLast? _ last).symm
  case isFalse => exact .inl rfl

variable {naming : Host.Naming}

theorem endpointUnder_eq_ok_iff {text : String} {e : Url} : endpointUnder naming text = .ok e
    ↔ ∃ u, Address.read naming text = .ok (.web u) ∧ e = u.endpoint := by
  rw [endpointUnder]
  rcases Address.read naming text with error | ⟨u | name⟩
  · simp
  · simp [eq_comm]
  · simp

/-- The scheme of a URL is one of the web exactly if the URL is of the web. -/
theorem scheme_of_read {text : String} {a : Address} (found : Address.read naming text = .ok a) :
    (a.scheme = "http" ∨ a.scheme = "https") ↔ ∃ u, a = .web u := by
  cases a with
  | web u => cases known : u.scheme <;> simp [Address.scheme, known, Scheme.name]
  | foreign name =>
    have unknown := webScheme?_of_read found
    constructor
    · rintro (rfl | rfl) <;> cases unknown
    · rintro ⟨u, same⟩
      cases same

/-- A text has no endpoint exactly if it denotes no absolute URL, or one whose scheme is not of the
web. Otherwise the endpoint has the scheme, the credentials, the host and the socket of the URL, and
neither query nor fragment. Its path is the path of the URL, with a slash after it if it does not
end in one, and the name of the endpoint: so it has all segments of the URL in their places, except
for an empty last one. A slash at the end of a text without query and fragment makes no difference
after a letter or digit. All of this holds whichever way domains are written. -/
theorem endpointUnder_below (naming : Host.Naming) (text : String) :
    ((∃ error, endpointUnder naming text = .error error) ↔ ∀ a, Address.read naming text = .ok a →
        a.scheme ≠ "http" ∧ a.scheme ≠ "https")
      ∧ (∀ e, endpointUnder naming text = .ok e → ∃ u, Address.read naming text = .ok (.web u)
        ∧ e.scheme = u.scheme ∧ e.credentials = u.credentials ∧ e.host = u.host
        ∧ e.socket = u.socket ∧ e.query = none ∧ e.fragment = none
        ∧ e.path = (if u.path.toList.getLast? = some '/' then u.path else u.path ++ "/")
          ++ "compile"
        ∧ ∃ kept, e.segments = kept ++ ["compile"]
          ∧ (u.segments = kept ∨ u.segments = kept ++ [""]))
      ∧ ∀ e c, endpointUnder naming text = .ok e → text.toList.getLast? = some c → c.isAlphanum →
        '?' ∉ text.toList → '#' ∉ text.toList → endpointUnder naming (text ++ "/") = .ok e := by
  refine ⟨?refused, ?kept, ?slash⟩
  case refused =>
    cases found : Address.read naming text with
    | error e => simp [endpointUnder, found]
    | ok a =>
      have known := scheme_of_read found
      cases a with
      | web u =>
        have ofWeb : (Address.web u).scheme = "http" ∨ (Address.web u).scheme = "https" :=
          known.mpr ⟨u, rfl⟩
        simpa [endpointUnder, found, ← not_or] using ofWeb
      | foreign name => simpa [endpointUnder, found, ← not_or] using known
  case kept =>
    intro e accepted
    obtain ⟨u, found, rfl⟩ := endpointUnder_eq_ok_iff.mp accepted
    have written := hasPath_of_read found
    refine ⟨u, found, ?_⟩
    rw [Url.path_endpoint written, Url.path_closed written, Url.endpoint_eq written]
    exact ⟨rfl, rfl, rfl, rfl, rfl, rfl, rfl, _, rfl, eq_directory_or u.segments⟩
  case slash =>
    intro e c accepted last alphanum noQuery noFragment
    obtain ⟨u, found, rfl⟩ := endpointUnder_eq_ok_iff.mp accepted
    obtain ⟨segments, again, same⟩ := read_slash found last alphanum noQuery noFragment
    refine endpointUnder_eq_ok_iff.mpr ⟨_, again, ?_⟩
    rw [Url.endpoint_eq (hasPath_of_read found), Url.endpoint_eq (hasPath_of_read again)]
    dsimp only
    rw [same]

/-- A path with an empty segment and an escaped step, a text that ends in such a step, and a URL
that is not of the web. -/
theorem endpointUnder_below_steps :
    (∃ e, endpointUnder .plain "http://h:81/a//%2E?q#f" = .ok e ∧ e.socket = some 81
        ∧ e.query = none ∧ e.path = "/a//" ++ "compile")
      ∧ (∃ e, endpointUnder .plain "http://h/a/%2e" = .ok e
        ∧ endpointUnder .plain ("http://h/a/%2e" ++ "/") = .ok e)
      ∧ ∃ error, endpointUnder .plain "ftp://h/" = .error error := by
  have crowded : Address.read .plain "http://h:81/a//%2E?q#f"
    = .ok (.web ⟨.http, "", "h", some 81, ["a", "", ""], some "q", some "f"⟩) := rfl
  have step : Address.read .plain "http://h/a/%2e"
    = .ok (.web ⟨.http, "", "h", none, ["a", ""], none, none⟩) := rfl
  have foreign : Address.read .plain "ftp://h/" = .ok (.foreign "ftp") := rfl
  obtain ⟨-, kept, -⟩ := endpointUnder_below .plain "http://h:81/a//%2E?q#f"
  obtain ⟨-, -, slash⟩ := endpointUnder_below .plain "http://h/a/%2e"
  obtain ⟨refused, -, -⟩ := endpointUnder_below .plain "ftp://h/"
  refine ⟨?_, ?_, refused.mpr ?_⟩
  · have accepted := endpointUnder_eq_ok_iff.mpr ⟨_, crowded, rfl⟩
    obtain ⟨u, found, -, -, -, socket, query, -, path, -⟩ := kept _ accepted
    rw [crowded] at found
    cases found
    exact ⟨_, accepted, socket, query, path⟩
  · have accepted := endpointUnder_eq_ok_iff.mpr ⟨_, step, rfl⟩
    exact ⟨_, accepted, slash _ 'e' accepted rfl (by decide) (by decide) (by decide)⟩
  · intro a found
    rw [foreign] at found
    cases found
    decide

end NeutralSchema.Service
