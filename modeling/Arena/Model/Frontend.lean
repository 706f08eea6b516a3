import Arena.Lib.FileSystem
import Arena.Model.Admin

/-!
# The files of the panel

`frontend` of `backend/app/main.py`: a path of the panel is answered with the file of that name in the
built frontend, and any other path with the panel's page.
-/

namespace Arena.Model

open Arena.Lib

variable {β : Type}

/-- The prefixes of the API, which are never a page of the panel. -/
def apiPath (path : List Char) : Bool :=
  "api/".toList.isPrefixOf path || "sub/".toList.isPrefixOf path

/-- `target.is_file()` and `FileResponse(target)`, for a non-empty path. -/
def frontendTarget (fs : FileSystem β) (dist : List (List Char)) (path : List Char) :
    Option (List (List Char) × β) :=
  if path = [] then none else fs.file? (joinPaths dist path)

/-- `frontend`, with `dist` for `frontend_dist`. A `FileResponse` without its file raises. -/
def frontend (fs : FileSystem β) (dist : List (List Char)) (path : List Char) :
    Except HttpError (List (List Char) × β) :=
  if apiPath path then .error (notFound "Not Found")
  else match frontendTarget fs dist path with
    | some file => .ok file
    | none => match fs.file? (joinPaths dist "index.html".toList) with
      | some page => .ok page
      | none => .error internalError

end Arena.Model
