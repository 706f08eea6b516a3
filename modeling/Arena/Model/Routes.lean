import Arena.Lib.Text

/-!
# The gateway's routes

The path handling of `gateway/cmd/arena-gateway/main.go`: the `/edge/` pattern of its
`ServeMux` and `routeIDs`.
-/

namespace Arena.Model

open Arena.Lib

/-- `mux.HandleFunc("/edge/", ..)`: the handler gets the clean paths under the pattern; a
`ServeMux` redirects any other path to its clean form. -/
def edgeHandles (path : String) : Bool :=
  cleanPath path.toList == path.toList && "/edge/".toList.isPrefixOf path.toList

/-- `routeIDs`. -/
def routeIDs (path : String) : String × String × Bool :=
  match (strip (· == '/') (trimPrefix "/edge/".toList path.toList)).splitOn '/' with
  | [node, user] =>
    if node = [] ∨ user = [] then ("", "", false)
    else (String.ofList node, String.ofList user, true)
  | _ => ("", "", false)

end Arena.Model
