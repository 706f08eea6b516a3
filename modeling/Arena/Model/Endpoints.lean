import Arena.Model.Responses

/-!
# What `public_endpoint` builds

The endpoint is a function of three parts of the parsed URL: the scheme, the host and the port.
-/

namespace Arena.Model

open Arena.Lib

def defaultPort (scheme : String) : ℕ := if scheme = "https" then 443 else 80

/-- A port that is missing or 0 is the default one. -/
def portOf (scheme : String) (given : Option ℕ) : ℕ :=
  if given.getD 0 = 0 then defaultPort scheme else given.getD 0

/-- A host with a colon is shown in brackets. -/
def displayHost (host : String) : String :=
  if host.toList.contains ':' then "[" ++ host ++ "]" else host

/-- The default port is not shown. -/
def authorityOf (scheme host : String) (port : ℕ) : String :=
  if port = defaultPort scheme then displayHost host else displayHost host ++ ":" ++ toString port

def endpointOf (scheme host : String) (port : ℕ) : PublicEndpoint where
  baseUrl := scheme ++ "://" ++ authorityOf scheme host port
  host := host
  authority := authorityOf scheme host port
  port := port
  security := if scheme = "https" then .tls else .none

variable {split : UrlSplit} {url scheme host : String} {base : PublicEndpoint} {port : ℕ}

/-- **What `public_endpoint` accepts.** -/
theorem publicEndpoint_eq_ok : publicEndpoint split url = .ok base ↔
    ∃ parsed given, split url = .ok parsed ∧ (parsed.scheme = "http" ∨ parsed.scheme = "https") ∧
      parsed.hostname.getD "" ≠ "" ∧ parsed.port = .ok given ∧
      base = endpointOf parsed.scheme (parsed.hostname.getD "") (portOf parsed.scheme given) := by
  simp only [publicEndpoint, bind_eq_ok]
  constructor
  · rintro ⟨parsed, located, accepted⟩
    split at accepted
    · cases accepted
    · rename_i refused
      obtain ⟨given, port, accepted⟩ := bind_eq_ok.1 accepted
      refine ⟨parsed, given, located, ?_, fun empty => refused (.inr empty), port, (Except.ok.inj accepted).symm⟩
      by_contra other
      exact refused (.inl (not_or.1 other))
  · rintro ⟨parsed, given, located, known, named, port, rfl⟩
    refine ⟨parsed, located, ?_⟩
    rw [if_neg (by tauto)]
    exact bind_eq_ok.2 ⟨given, port, rfl⟩

/-- A host that is not `auto` is not shown as `auto`. -/
theorem authorityOf_ne (other : host ≠ "auto") : authorityOf scheme host port ≠ "auto" := by
  have display : displayHost host ≠ "auto" := by
    unfold displayHost
    split
    · intro same
      have opening := congrArg (fun s => s.toList.head?) same
      simp at opening
    · exact other
  unfold authorityOf
  split
  · exact display
  · intro same
    have colon : ':' ∈ (displayHost host ++ ":" ++ toString port).toList := by simp
    rw [same] at colon
    exact absurd colon (by decide)

end Arena.Model
