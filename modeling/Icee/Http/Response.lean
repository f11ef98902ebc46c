import Icee.Http.Request

set_option relaxedAutoImplicit false
set_option autoImplicit false

/-!
# Responses

`src/http/response.cc`: a response is a status line, headers that depend on the file it is about,
and, if it is told to transfer it, the content of that file.

## Main definitions

* `Icee.Http.Response`, `Icee.Http.Response.make` — the constructor; `make200Response`,
  `make400Response`, `make404Response`, `make503Response` are its uses.
* `Icee.Http.Response.serialize` — the bytes of a response.
* `Icee.Http.answerLines` — the lines of the head of a response about a file of a given size.

## Main results

* `Icee.Http.Response.make_none`, `Icee.Http.Response.make200Response_regular`,
  `Icee.Http.Response.make200Response_directory` — the responses there are, with their heads.

## Design

`should_transfer_content_` has no initial value; it is an option, and reading an unset one is
`Fault.indeterminateRead`. `body_` is never used and left out.
-/

namespace Icee.Http

/-- `Response`. -/
structure Response where
  statusLine : Bytes
  headers : List Header
  shouldClose : Bool
  shouldTransferContent : Option Bool := none
  url : Option Bytes
  deriving DecidableEq

namespace Response

/-- `Response::Response(status_code, should_close, url)`. -/
def make (fs : FileSystem) (statusCode : Bytes) (shouldClose : Bool) (url : Option Bytes) :
    Except Fault Response := do
  let statusLine := httpVersion ++ space ++ statusCode
  let headers : List Header :=
    [{ key := headerServer, value := serverIcee },
     { key := headerConnection,
       value := if shouldClose then connectionClose else connectionKeepAlive }]
  match url.filter (isFileExist fs) with
  | some path =>
    let size ← fileSize fs path
    let headers := headers ++ [{ key := headerContentLength, value := toDecimal size }]
    let headers := match findLastOf path dot with
      | some index =>
        let extension := toExtension (path.drop (index + 1))
        headers ++ [{ key := headerContentType, value := extensionToMime extension }]
      | none => headers
    return { statusLine, headers, shouldClose, url := some path }
  | none =>
    let headers := headers ++ [{ key := headerContentLength, value := bytes "0" }]
    return { statusLine, headers, shouldClose, url := none }

/-- `Response::Make200Response`. -/
def make200Response (fs : FileSystem) (shouldClose : Bool) (url : Option Bytes) :
    Except Fault Response :=
  match url with
  | none => .error (.assertFailed .make200ResponseHasUrl)
  | some path => make fs responseOk shouldClose (some path)

/-- `Response::Make400Response`. -/
def make400Response (fs : FileSystem) : Except Fault Response :=
  make fs responseBadRequest true none

/-- `Response::Make404Response`. -/
def make404Response (fs : FileSystem) : Except Fault Response :=
  make fs responseNotFound true none

/-- `Response::Make503Response`. -/
def make503Response (fs : FileSystem) : Except Fault Response :=
  make fs responseServiceUnavailable true none

/-- `Response::SetShouldTransferContent`. -/
def setShouldTransferContent (r : Response) (shouldTransferContent : Bool) : Response :=
  { r with shouldTransferContent := some shouldTransferContent }

/-- `Response::GetHeaders`. -/
def getHeaders (r : Response) : List Header := r.headers

/-- The loop of `Response::ChangeHeader`: the headers and the result. -/
def changeFirst (key newValue : Bytes) : List Header → List Header × Bool
  | [] => ([], false)
  | it :: headers =>
    if it.key = key then (it.setValue newValue :: headers, true)
    else
      let (headers, found) := changeFirst key newValue headers
      (it :: headers, found)

/-- `Response::ChangeHeader`: the response and the result after the call. -/
def changeHeader (r : Response) (key newValue : Bytes) : Response × Bool :=
  let (headers, found) := changeFirst key newValue r.headers
  ({ r with headers }, found)

/-- The part of a response before its body. -/
def basicData (r : Response) : Bytes :=
  r.statusLine ++ crlf ++ r.headers.flatMap Header.serialize ++ crlf

/-- `Response::Serialize`: the buffer after the call, and whether an element past its end was
referred to on the way. -/
def serialize (fs : FileSystem) (r : Response) (buffer : Bytes) : Except Fault (Bytes × Bool) :=
  match r.url with
  | none => .ok (buffer ++ r.basicData, false)
  | some path => match r.shouldTransferContent with
    | none => .error .indeterminateRead
    | some true => loadFile fs path (buffer ++ r.basicData)
    | some false => .ok (buffer ++ r.basicData, false)

end Response

/-! ## The bytes of a response -/

/-- The lines of the head of a response: the status line and the headers, without line ends. The
file type is given only for a path with a dot. -/
def answerLines (statusCode : Bytes) (close : Bool) (size : ℕ) (mime : Option Bytes) :
    List Bytes :=
  [httpVersion ++ space ++ statusCode,
    headerServer ++ colon ++ serverIcee,
    headerConnection ++ colon ++ (if close then connectionClose else connectionKeepAlive),
    headerContentLength ++ colon ++ toDecimal size] ++
  (mime.map fun m => headerContentType ++ colon ++ m).toList

/-- The file type announced for a path. -/
def mimeOf (path : Bytes) : Option Bytes :=
  (findLastOf path dot).map fun index => extensionToMime (toExtension (path.drop (index + 1)))

/-- The head of a response. -/
def answerHead (statusCode : Bytes) (close : Bool) (size : ℕ) (mime : Option Bytes) : Bytes :=
  (answerLines statusCode close size mime).flatMap (· ++ crlf) ++ crlf

namespace Response

variable {fs : FileSystem} {r : Response}

@[simp] lemma setShouldTransferContent_url (r : Response) (transfer : Bool) :
    (r.setShouldTransferContent transfer).url = r.url := rfl

@[simp] lemma setShouldTransferContent_basicData (r : Response) (transfer : Bool) :
    (r.setShouldTransferContent transfer).basicData = r.basicData := rfl

@[simp] lemma setShouldTransferContent_shouldTransferContent (r : Response) (transfer : Bool) :
    (r.setShouldTransferContent transfer).shouldTransferContent = some transfer := rfl

/-- A response that is not about a file. -/
lemma make_none (fs : FileSystem) (statusCode : Bytes) (close : Bool) :
    ∃ r, make fs statusCode close none = .ok r ∧
      r.serialize fs [] = .ok (answerHead statusCode close 0 none, false) := by
  refine ⟨_, rfl, ?_⟩
  have hzero : toDecimal 0 = bytes "0" := rfl
  simp [serialize, basicData, answerHead, answerLines, Header.serialize, hzero]

/-- The response about a regular file. -/
lemma make200Response_regular {path content : Bytes} (h : fs path = .regular content)
    (close : Bool) :
    ∃ r, make200Response fs close (some path) = .ok r ∧ r.url = some path ∧
      r.basicData = answerHead responseOk close content.length (mimeOf path) := by
  have hexists : (some path).filter (isFileExist fs) = some path := by
    simp [Option.filter, isFileExist, h]
  have hsize : fileSize fs path = .ok content.length := by simp [fileSize, h]
  simp only [make200Response, make, hexists, hsize, bind, Except.bind]
  refine ⟨_, rfl, rfl, ?_⟩
  cases hdot : findLastOf path dot with
  | none => simp [basicData, answerHead, answerLines, Header.serialize, mimeOf, hdot]
  | some index => simp [basicData, answerHead, answerLines, Header.serialize, mimeOf, hdot]

/-- There is no response about a directory: its size cannot be had. -/
lemma make200Response_directory {path : Bytes} (h : fs path = .directory) (close : Bool) :
    make200Response fs close (some path) = .error .filesystemError := by
  have hexists : (some path).filter (isFileExist fs) = some path := by
    simp [Option.filter, isFileExist, h]
  have hsize : fileSize fs path = .error .filesystemError := by simp [fileSize, h]
  simp only [make200Response, make, hexists, hsize, bind, Except.bind]

/-- The bytes of a response about a regular file. -/
lemma serialize_regular {path content : Bytes} (hurl : r.url = some path)
    (h : fs path = .regular content) (transfer : Bool) :
    (r.setShouldTransferContent transfer).serialize fs [] =
      .ok (r.basicData ++ (if transfer then content else []),
        transfer && decide (content = [])) := by
  cases transfer with
  | false => simp [serialize, hurl]
  | true => simp [serialize, hurl, loadFile_regular h]

end Response

end Icee.Http
