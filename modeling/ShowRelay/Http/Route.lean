/-
  ShowRelay.Http.Route

  What the relay answers over HTTP: the state of the show, the names of the
  snapshots, and the text of one of them. It only ever reads.

      /state.txt         the state as a message
      /s/ and /s         the names of the snapshots, one to a line
      /s/NAME.preset     the text of a snapshot, with percent escapes in NAME
-/

import ShowRelay.Http.Percent
import ShowRelay.LogRecord
import ShowRelay.Snapshot.Archive

namespace ShowRelay.Http

/-- A request for a resource. -/
structure Request where
  -- The method, in capitals as it is sent.
  method : String
  -- The path, with whatever query and fragment follow it.
  url : String
  deriving Repr, DecidableEq

/-- An answer, which is always plain text. -/
structure Response where
  status : Nat
  body : String
  deriving Repr, DecidableEq

namespace Response

/-- The type of every answer. -/
def contentType : String := "text/plain"

/-- An answer with a text. -/
def ok (body : String) : Response := ⟨200, body⟩

/-- The answer where there is nothing. -/
def notFound : Response := ⟨404, "not found\n"⟩

/-- The answer to a method other than `GET`. -/
def methodNotAllowed : Response := ⟨405, "method not allowed\n"⟩

/-- The answer when the names of the snapshots cannot be read. -/
def listingFailed : Response := ⟨500, "snapshot listing failed\n"⟩

/-- The answer when a snapshot cannot be read. -/
def readFailed : Response := ⟨500, "snapshot read failed\n"⟩

/-- The name of a status. -/
def statusName : Nat → String
  | 200 => "OK"
  | 404 => "Not Found"
  | 405 => "Method Not Allowed"
  | _ => "Internal Server Error"

/-- The text that is sent in answer to a method; `HEAD` asks for none. -/
def sentBody (r : Response) (method : String) : String := if method = "HEAD" then "" else r.body

end Response

/-- The path of the state. -/
def statePath : String := "/state.txt"

/-- The beginning of the path of every snapshot, and the path of their listing. -/
def snapshotsPath : String := "/s/"

/-- The path of a URL: what stands before the first `?` or `#`. -/
def pathOf (url : String) : List Char := url.toList.takeWhile fun c => c ≠ '?' && c ≠ '#'

/-- The answer to a request for the listing, and what is noted about it. -/
def listing (archive : Archive) : Response × List LogRecord :=
  match archive.list with
  | .ok names => (.ok (String.join (names.map (· ++ "\n"))), [])
  | .error e => (.listingFailed, [⟨.warn, "listing snapshots: " ++ e.message⟩])

/-- The answer to a request for the snapshot of a name. -/
def snapshot (archive : Archive) (name : String) : Response × List LogRecord :=
  match archive.load name with
  | .ok text => (.ok text, [])
  | .error (.notFound _) | .error (.invalidName _) => (.notFound, [])
  | .error e => (.readFailed, [⟨.warn, "loading snapshot: " ++ e.message⟩])

/-- The name of the snapshot that a file name in a URL asks for. -/
def requestedName? (file : List Char) : Option String := do
  let text ← unescape? file
  let stem ← Text.dropBack? SnapshotName.ending.toList text.toList
  return String.ofList stem

/-- The answer to a request, and what is noted about it. -/
def route (store : Store) (archive : Archive) (request : Request) : Response × List LogRecord :=
  if request.method ≠ "GET" then (.methodNotAllowed, [])
  else
    let path := pathOf request.url
    if path = statePath.toList then (.ok store.text, [])
    else if path = snapshotsPath.toList ∨ path = "/s".toList then listing archive
    else
      match Text.dropFront? snapshotsPath.toList path with
      | none => (.notFound, [])
      | some file =>
        match requestedName? file with
        | none => (.notFound, [])
        | some name => snapshot archive name

end ShowRelay.Http
