import DocBlock.Completion
import DocBlock.Json.Encode
import DocBlock.Reflow
import DocBlock.Service.Request
import DocBlock.Service.Target
import DocBlock.Style.Resolve

/-! The routes of the service and their responses. -/

namespace DocBlock.Service

/-- A response: its status and its body. -/
structure Response where
  status : Nat
  body : Json

/-- A successful response. -/
def success (body : Json) : Response :=
  { status := 200, body }

/-- A redirection. It has no body of its own. -/
def redirection : Response :=
  { status := 308, body := .null }

/-- A failure with a short reason. -/
def failure (status : Nat) (reason : String) : Response :=
  { status, body := .record [("error", .ofString reason)] }

/-- The response to a body that did not pass validation. -/
def invalid (details : List Detail) : Response :=
  {
    status := 400
    body := .record [
      ("error", .ofString "validation failed"),
      ("details", .array (details.map Detail.toJson))
    ]
  }

/-- The response to style options that are refused. -/
def refused (error : StyleError) : Response :=
  {
    status := 400
    body := .record [("error", .ofString error.message), ("field", .string error.key)]
  }

/-- Generate a comment, with the options of the request on top of the service's style. -/
def generate (style : Style) (request : GenerateRequest) : Response :=
  match style.withOptions request.options with
  | .ok style =>
    success ((Document.generate style request.text request.line).toJson Declaration.toJson)
  | .error error => refused error

/-- The tags to offer. -/
def complete (request : CompleteRequest) : Response :=
  let tags := Completion.tagsAt request.text request.offset
  success (.record [("items", .array (tags.map Completion.Tag.toJson))])

/-- Reflow a text. Both possible widths are positive. -/
def reflow (style : Style) (request : ReflowRequest) : Response :=
  let width := (request.width.map (·.val)).getD style.wrapWidth
  match Reflow.reflow width request.text with
  | .ok text => success (.record [("text", .string text)])
  | .error _ => failure 500 "internal server error"

/-- What the service does. It has a place for files, which is empty. -/
inductive Route where
  | health
  | generate
  | complete
  | reflow
  | file
  deriving Repr, DecidableEq

/-- The path is that of a file: a name, on one line, below the directory of files. -/
def isFilePath (path : Text) : Bool :=
  match Text.after? "/static/".toList path with
  | some (first :: rest) => first ≠ '/' && !(first :: rest).contains '\n'
  | _ => false

/-- The route of a path. Case matters, and so does a final slash. -/
def Route.ofPath? (path : Text) : Option Route :=
  if isFilePath path then some .file
  else
    [
      ("/api/health", Route.health),
      ("/api/generate", .generate),
      ("/api/complete", .complete),
      ("/api/reflow", .reflow)
    ].findSome? fun (known, route) => if known.toList = path then some route else none

/-- The method of a route. -/
def Route.method : Route → Text
  | .health | .file => "GET".toList
  | .generate | .complete | .reflow => "POST".toList

/-- Nothing has the path of the request. -/
def notFound : Response :=
  failure 404 "not found"

/-- Validate a body and answer what it asks for. -/
def answer {α : Type} (read : Json → Except (List Detail) α) (respond : α → Response)
    (body : Body)
    : Response :=
  match read body.value with
  | .ok request => respond request
  | .error details => invalid details

/-- The response of a route. -/
def Route.respond (style : Style) (body : Body) : Route → Response
  | .health => success (.record [("status", .ofString "ok")])
  | .generate => answer GenerateRequest.read (Service.generate style) body
  | .complete => answer CompleteRequest.read Service.complete body
  | .reflow => answer ReflowRequest.read (Service.reflow style) body
  | .file => notFound

/-- The response of a route, if the method of the request is the route's. -/
def Request.answeredBy (request : Request) (route : Route) (response : Response) : Response :=
  if request.method.map Char.toUpper = route.method then response
  else failure 405 "method not allowed"

/-- The response to a request. A path that becomes known when its doubled slashes are merged is
redirected. -/
def respond (style : Style) (request : Request) : Response :=
  let path := targetPath request.target
  match Route.ofPath? path, Route.ofPath? (mergedSlashes path) with
  | some route, _ => request.answeredBy route (route.respond style request.body)
  | none, some route => request.answeredBy route redirection
  | none, none => notFound

end DocBlock.Service
