import Icee.Http.Client
import Icee.Http.Grammar

set_option relaxedAutoImplicit false
set_option autoImplicit false

/-!
# Reading a response back

The bytes of a response are read with the tools that the server has for requests: the first
`CRLFCRLF` ends the head, `Split` cuts the head into lines, and `Header(header_line)` reads a line.

## Main definitions

* `Icee.Http.Response.MadeBy` — the responses of the factories, with the bytes of their file.
* `Icee.Http.Clean` — the values that headers may be given.
* `Icee.Http.Response.changeHeaders` — some calls of `ChangeHeader`.
* `Icee.Http.Response.ReadsBack` — what has been serialised is read back.

## Main results

* `Icee.Http.Response.Readable` — what the factories establish and `ChangeHeader` preserves.
* `Icee.Http.Response.readsBack_iff` — a response is read back exactly if its head is shorter than
  `2^31` bytes.
-/

namespace Icee.Http

/-- A value that may be given to a header: not empty, and free of colons and line ends. -/
def Clean (value : Bytes) : Prop := value ≠ [] ∧ 58 ∉ value ∧ 13 ∉ value ∧ 10 ∉ value

instance (value : Bytes) : Decidable (Clean value) := inferInstanceAs (Decidable (_ ∧ _))

/-- The line of a header, without its end. -/
def Header.line (h : Header) : Bytes := h.key ++ colon ++ h.value

namespace Response

/-- The responses of the factories for a file system in which the path asked for is absent or a
regular file, and the bytes of that file. -/
inductive MadeBy (fs : FileSystem) : Response → Bytes → Prop
  | file {r : Response} {path content : Bytes} (close : Bool) :
    fs path = .regular content → make200Response fs close (some path) = .ok r →
      MadeBy fs r content
  | absent {r : Response} {path : Bytes} (close : Bool) :
    fs path = .absent → make200Response fs close (some path) = .ok r → MadeBy fs r []
  | badRequest {r : Response} : make400Response fs = .ok r → MadeBy fs r []
  | notFound {r : Response} : make404Response fs = .ok r → MadeBy fs r []
  | unavailable {r : Response} : make503Response fs = .ok r → MadeBy fs r []

/-- Some calls of `ChangeHeader`. -/
def changeHeaders (r : Response) (changes : List (Bytes × Bytes)) : Response :=
  changes.foldl (fun r change => (r.changeHeader change.1 change.2).1) r

/-- The size of the head: the status line and the headers with their ends, and the blank line. -/
def headSize (r : Response) : ℕ :=
  r.statusLine.length + 2 + (r.headers.map fun h => h.key.length + h.value.length + 3).sum + 2

/-- **A response is read back**: the previous content of the buffer stays, and a head and a body are
appended, such that the head is what the first blank line ends; `Split` cuts it into the status
line, a line for each header and an empty token; each of these lines is parsed as its header;
exactly one of them gives the length; and the body is the given one. -/
def ReadsBack (fs : FileSystem) (r : Response) (buffer content : Bytes) : Prop :=
  ∃ head body past, r.serialize fs buffer = .ok (buffer ++ (head ++ body), past) ∧
    Search.cut crlfCrlf (head ++ body) = some (head, body) ∧
    split head crlf = .ok (r.statusLine :: r.getHeaders.map Header.line ++ [[]]) ∧
    (∀ h ∈ r.getHeaders, ∃ h', Header.ofLine h.line = .ok h' ∧ h'.key = h.key ∧
      h'.value = h.value) ∧
    ((r.getHeaders.map Header.line).countP fun l => headerContentLength ++ colon <+: l) = 1 ∧
    body = content

/-- What the factories establish and `ChangeHeader` preserves: a status line, the keys of a response
with or without a file type, clean values, and the file to be transferred. -/
structure Readable (fs : FileSystem) (content : Bytes) (r : Response) : Prop where
  status : r.statusLine ≠ [] ∧ 13 ∉ r.statusLine
  keys : r.headers.map Header.key = [headerServer, headerConnection, headerContentLength] ∨
    r.headers.map Header.key =
      [headerServer, headerConnection, headerContentLength, headerContentType]
  values : ∀ h ∈ r.headers, Clean h.value
  file : r.url = none ∧ content = [] ∨ ∃ path, r.url = some path ∧ fs path = .regular content

/-! ## The factories -/

/-- Numbers are clean. -/
lemma clean_toDecimal (n : ℕ) : Clean (toDecimal n) := by
  have hdigit : ∀ c ∈ toDecimal n, c ≠ 58 ∧ c ≠ 13 ∧ c ≠ 10 := by
    intro c hc
    have hrange := Client.digits_toDecimal hc
    refine ⟨?_, ?_, ?_⟩ <;> rintro rfl <;> exact absurd hrange (by decide)
  refine ⟨?_, fun h => (hdigit 58 h).1 rfl, fun h => (hdigit 13 h).2.1 rfl,
    fun h => (hdigit 10 h).2.2 rfl⟩
  intro hnil
  have hback := Client.decimal_toDecimal n
  rw [hnil] at hback
  cases hback

/-- The file types are clean. -/
lemma clean_extensionToMime (e : Extension) : Clean (extensionToMime e) := by
  cases e <;> decide

/-- The values for the `Connection` header are clean. -/
lemma clean_connection (close : Bool) :
    Clean (if close then connectionClose else connectionKeepAlive) := by
  cases close <;> decide

/-- A response that is not about a file. -/
lemma readable_make_none {fs : FileSystem} {statusCode : Bytes} (hcode : 13 ∉ statusCode)
    {close : Bool} {url : Option Bytes} (hurl : url.filter (isFileExist fs) = none) {r : Response}
    (h : make fs statusCode close url = .ok r) : Readable fs [] r := by
  simp only [make, hurl] at h
  cases h
  refine ⟨⟨by simp [httpVersion, bytes], ?_⟩, .inl rfl, ?_, .inl ⟨rfl, rfl⟩⟩
  · simpa using ⟨by decide, by decide, hcode⟩
  · simpa using ⟨by decide, clean_connection close, by decide⟩

/-- The response about a regular file. -/
lemma readable_make_some {fs : FileSystem} {path content : Bytes} {close : Bool} {r : Response}
    (hfile : fs path = .regular content) (h : make200Response fs close (some path) = .ok r) :
    Readable fs content r := by
  have hexists : (some path).filter (isFileExist fs) = some path := by
    simp [Option.filter, isFileExist, hfile]
  have hsize : fileSize fs path = .ok content.length := by simp [fileSize, hfile]
  have hstatus : httpVersion ++ space ++ responseOk ≠ [] ∧
      13 ∉ httpVersion ++ space ++ responseOk := by decide
  simp only [make200Response, make, hexists, hsize, bind, Except.bind] at h
  cases h
  refine ⟨hstatus, ?_, ?_, .inr ⟨path, rfl, hfile⟩⟩
  · cases findLastOf path dot with
    | none => exact .inl rfl
    | some index => exact .inr rfl
  · cases findLastOf path dot with
    | none => simpa using ⟨by decide, clean_connection close, clean_toDecimal _⟩
    | some index =>
      simpa using ⟨by decide, clean_connection close, clean_toDecimal _, clean_extensionToMime _⟩

/-- **What the factories make** is readable. -/
lemma MadeBy.readable {fs : FileSystem} {r : Response} {content : Bytes} (h : MadeBy fs r content) :
    Readable fs content r := by
  cases h with
  | file close hfile hr => exact readable_make_some hfile hr
  | absent close habsent hr =>
    exact readable_make_none (by decide) (by simp [Option.filter, isFileExist, habsent]) hr
  | badRequest hr => exact readable_make_none (by decide) rfl hr
  | notFound hr => exact readable_make_none (by decide) rfl hr
  | unavailable hr => exact readable_make_none (by decide) rfl hr

/-! ## Changed headers -/

/-- Changing a value changes no key. -/
lemma changeFirst_keys (key newValue : Bytes) (headers : List Header) :
    (changeFirst key newValue headers).1.map Header.key = headers.map Header.key := by
  induction headers with
  | nil => rfl
  | cons it headers ih =>
    unfold changeFirst
    split
    · rfl
    · simpa using ih

/-- Only the new value comes in. -/
lemma changeFirst_values {key newValue : Bytes} (hnew : Clean newValue) {headers : List Header}
    (h : ∀ it ∈ headers, Clean it.value) :
    ∀ it ∈ (changeFirst key newValue headers).1, Clean it.value := by
  induction headers with
  | nil => simp [changeFirst]
  | cons it headers ih =>
    have hrest : ∀ it' ∈ headers, Clean it'.value := fun it' hit' =>
      h it' (List.mem_cons_of_mem it hit')
    unfold changeFirst
    split
    · intro it' hit'
      rcases List.mem_cons.mp hit' with rfl | hit'
      · exact hnew
      · exact hrest it' hit'
    · intro it' hit'
      rcases List.mem_cons.mp hit' with rfl | hit'
      · exact h it' List.mem_cons_self
      · exact ih hrest it' hit'

/-- **`ChangeHeader`** leaves a readable response readable. -/
lemma Readable.changeHeaders {fs : FileSystem} {content : Bytes} (changes : List (Bytes × Bytes)) :
    ∀ {r : Response}, (∀ change ∈ changes, Clean change.2) → Readable fs content r →
      Readable fs content (r.changeHeaders changes) := by
  induction changes with
  | nil => intro r _ h; exact h
  | cons change changes ih =>
    intro r hchanges h
    refine ih (fun c hc => hchanges c (List.mem_cons_of_mem change hc)) ?_
    refine ⟨h.status, ?_, changeFirst_values (hchanges change List.mem_cons_self) h.values, h.file⟩
    simpa only [changeHeader, changeFirst_keys] using h.keys

/-- `ChangeHeader` leaves it to `SetShouldTransferContent` whether the file is transferred. -/
lemma changeHeaders_shouldTransferContent (changes : List (Bytes × Bytes)) : ∀ r : Response,
    (r.changeHeaders changes).shouldTransferContent = r.shouldTransferContent := by
  induction changes with
  | nil => intro r; rfl
  | cons change changes ih => intro r; exact ih _

/-! ## The bytes -/

/-- The head is a list of lines and a blank line. -/
lemma basicData_eq (r : Response) : r.basicData =
    (r.statusLine :: r.headers.map Header.line).flatMap (· ++ crlf) ++ crlf := by
  have hline : Header.serialize = fun h => h.line ++ crlf := rfl
  rw [basicData, hline, List.flatMap_cons, List.flatMap_map]

/-- The size of the head. -/
lemma length_basicData (r : Response) : r.basicData.length = r.headSize := by
  have hheader : ∀ h : Header, h.serialize.length = h.key.length + h.value.length + 3 := by
    intro h
    simp only [Header.serialize, List.length_append, show colon.length = 1 from rfl,
      show crlf.length = 2 from rfl]
    omega
  simp only [basicData, headSize, List.length_append, List.length_flatMap, hheader,
    show crlf.length = 2 from rfl]

namespace Readable

variable {fs : FileSystem} {content : Bytes} {r : Response}

/-- The keys there are. -/
lemma key_mem (hr : Readable fs content r) {h : Header} (hh : h ∈ r.headers) :
    h.key ∈ [headerServer, headerConnection, headerContentLength, headerContentType] := by
  have hkey : h.key ∈ r.headers.map Header.key := List.mem_map_of_mem hh
  rcases hr.keys with hkeys | hkeys
  · rw [hkeys] at hkey
    exact List.mem_append_left [headerContentType] hkey
  · rwa [hkeys] at hkey

/-- What the keys are like. -/
lemma key_spec (hr : Readable fs content r) {h : Header} (hh : h ∈ r.headers) :
    58 ∉ h.key ∧ 13 ∉ h.key ∧ h.key.length < 2 ^ 31 - 1 := by
  have hall : ∀ key ∈ [headerServer, headerConnection, headerContentLength, headerContentType],
      58 ∉ key ∧ 13 ∉ key ∧ key.length < 2 ^ 31 - 1 := by decide
  exact hall h.key (hr.key_mem hh)

/-- The lines of the head are not empty and have no line ends. -/
lemma lines_clean (hr : Readable fs content r) :
    ∀ l ∈ r.statusLine :: r.headers.map Header.line, l ≠ [] ∧ 13 ∉ l := by
  intro l hl
  rcases List.mem_cons.mp hl with rfl | hl
  · exact hr.status
  · obtain ⟨h, hh, rfl⟩ := List.mem_map.mp hl
    have hkey := (hr.key_spec hh).2.1
    have hvalue := (hr.values h hh).2.2.1
    refine ⟨by simp [Header.line, colon, bytes], ?_⟩
    simpa [Header.line] using ⟨hkey, show (13 : UInt8) ∉ colon by decide, hvalue⟩

/-- **The first blank line** of the bytes is the end of the head, whatever the body is. -/
lemma cut_basicData (hr : Readable fs content r) (body : Bytes) :
    Search.cut crlfCrlf (r.basicData ++ body) = some (r.basicData, body) := by
  rw [basicData_eq]
  exact Search.cut_head (by decide) (List.cons_ne_nil _ _) hr.lines_clean body

/-- **`Split`** cuts the head into its lines. -/
lemma split_basicData (hr : Readable fs content r) (hlen : r.headSize < 2 ^ 31) :
    split r.basicData crlf = .ok (r.statusLine :: r.headers.map Header.line ++ [[]]) := by
  rw [← length_basicData] at hlen
  rw [split_eq (by decide) (by omega), basicData_eq]
  refine congrArg Except.ok (Request.tokens_of_lines fun l hl hcrlf => ?_)
  exact (hr.lines_clean l hl).2 (hcrlf.subset List.mem_cons_self)

/-- **`Header(header_line)`** reads a header back from its line. -/
lemma ofLine_line (hr : Readable fs content r) {h : Header} (hh : h ∈ r.headers) :
    Header.ofLine h.line = .ok { key := h.key, value := h.value } := by
  obtain ⟨hcolon, -, hshort⟩ := hr.key_spec hh
  obtain ⟨hne, hvalue, -, -⟩ := hr.values h hh
  have hnone : Search.leftmost colon h.value = none :=
    Search.leftmost_eq_none_iff.mpr fun hin => hvalue (Search.singleton_infix_iff.mp hin)
  rw [Header.line, Header.ofLine_of_value hcolon hne, Search.tokens_of_leftmost_none hnone,
    if_neg hne]
  · rfl
  · simp only [Search.fields_of_leftmost_none hnone, List.length_append,
      show colon.length = 1 from rfl]
    omega

/-- **There is exactly one line with the length** of the body. -/
lemma countP_contentLength (hr : Readable fs content r) :
    ((r.headers.map Header.line).countP fun l => headerContentLength ++ colon <+: l) = 1 := by
  have hline : ∀ h ∈ r.headers, (decide (headerContentLength ++ colon <+: h.line) = true ↔
      decide (h.key = headerContentLength) = true) := by
    intro h hh
    rw [decide_eq_true_iff, decide_eq_true_iff]
    constructor
    · rintro ⟨rest, hrest⟩
      have hkey := congrArg keyOf hrest
      rw [Header.line, Request.keyOf_append (hr.key_spec hh).1,
        Request.keyOf_append (by decide)] at hkey
      exact hkey.symm
    · intro hkey
      rw [Header.line, hkey]
      exact List.prefix_append _ _
  have hcount : (r.headers.map Header.line).countP
      (fun l => headerContentLength ++ colon <+: l) =
      (r.headers.map Header.key).countP fun key => key = headerContentLength := by
    rw [List.countP_map, List.countP_map]
    exact List.countP_congr hline
  rw [hcount]
  rcases hr.keys with hkeys | hkeys
  · rw [hkeys]
    decide
  · rw [hkeys]
    decide

/-- **`Serialize`** appends the head and, if it is to be transferred, the file. -/
lemma serialize (hr : Readable fs content r) {transfer : Bool}
    (htransfer : r.shouldTransferContent = some transfer) (buffer : Bytes) :
    ∃ past, r.serialize fs buffer =
      .ok (buffer ++ (r.basicData ++ if transfer then content else []), past) := by
  unfold Response.serialize
  rcases hr.file with ⟨hurl, hcontent⟩ | ⟨path, hurl, hfile⟩
  · rw [hurl, hcontent]
    exact ⟨false, by cases transfer <;> simp⟩
  · rw [hurl, htransfer]
    cases transfer with
    | false => exact ⟨false, by simp⟩
    | true => exact ⟨_, by simp [loadFile_regular hfile]; rfl⟩

end Readable

/-- The head of a response that is read back is within the reach of the `int` cursor of `Split`. -/
lemma Readable.headSize_lt {fs : FileSystem} {content : Bytes} {r : Response}
    (hr : Readable fs content r) {transfer : Bool}
    (htransfer : r.shouldTransferContent = some transfer) (hmem : r.headSize < 2 ^ 63)
    {buffer content' : Bytes} (h : ReadsBack fs r buffer content') : r.headSize < 2 ^ 31 := by
  obtain ⟨past, hserialize⟩ := hr.serialize htransfer buffer
  obtain ⟨head, body, past', hserialize', hcut, hsplit, -⟩ := h
  rw [hserialize] at hserialize'
  have hbytes := List.append_cancel_left (Prod.mk.inj (Except.ok.inj hserialize')).1
  rw [← hbytes, hr.cut_basicData] at hcut
  have hhead := (Prod.mk.inj (Option.some.inj hcut)).1
  rw [← hhead] at hsplit
  rw [← length_basicData] at hmem ⊢
  exact length_lt_of_split hmem hsplit List.getLast?_concat

/-- **Which responses are read back.** Let a response be made by one of the factories for a file
system in which the path asked for is absent or a regular file; let it be told whether to transfer
the file, and let its headers be changed to clean values. Then what `Serialize` appends to a buffer
is read back, with the bytes of the file as its body if they are to be transferred and with an empty
body if not, exactly if the head is shorter than `2^31` bytes. (It is put together in a
`std::string`, which has less than `2^63` bytes.) -/
theorem readsBack_iff {fs : FileSystem} {r : Response} {content : Bytes} (hmade : MadeBy fs r content)
    (transfer : Bool) {changes : List (Bytes × Bytes)}
    (hchanges : ∀ change ∈ changes, Clean change.2)
    (hmem : ((r.setShouldTransferContent transfer).changeHeaders changes).headSize < 2 ^ 63)
    (buffer : Bytes) :
    ReadsBack fs ((r.setShouldTransferContent transfer).changeHeaders changes) buffer
        (if transfer then content else []) ↔
      ((r.setShouldTransferContent transfer).changeHeaders changes).headSize < 2 ^ 31 := by
  have hr : Readable fs content (r.setShouldTransferContent transfer) :=
    ⟨hmade.readable.status, hmade.readable.keys, hmade.readable.values, hmade.readable.file⟩
  have hr' := Readable.changeHeaders changes hchanges hr
  have htransfer := changeHeaders_shouldTransferContent changes (r.setShouldTransferContent transfer)
  generalize (r.setShouldTransferContent transfer).changeHeaders changes = r' at *
  constructor
  · exact hr'.headSize_lt htransfer hmem
  · intro hlen
    obtain ⟨past, hserialize⟩ := hr'.serialize htransfer buffer
    exact ⟨_, _, past, hserialize, hr'.cut_basicData _, hr'.split_basicData hlen,
      fun h hh => ⟨_, hr'.ofLine_line hh, rfl, rfl⟩, hr'.countP_contentLength, rfl⟩

/-- A file with a blank line in it. -/
def blankLineFiles : FileSystem := fun path =>
  if path = bytes "a.html" then .regular (bytes "\r\n\r\nhi") else .absent

/-- The response about this file, with another name for the server. -/
theorem readsBack_iff_blankLine :
    ∃ r, make200Response blankLineFiles false (some (bytes "a.html")) = .ok r ∧
      ReadsBack blankLineFiles
        ((r.setShouldTransferContent true).changeHeaders [(headerServer, bytes "x")])
        (bytes "old") (bytes "\r\n\r\nhi") := by
  have hmake : make200Response blankLineFiles false (some (bytes "a.html")) = .ok
      { statusLine := bytes "Http/1.1 200 OK"
        headers := [{ key := headerServer, value := serverIcee },
          { key := headerConnection, value := connectionKeepAlive },
          { key := headerContentLength, value := bytes "6" },
          { key := headerContentType, value := bytes "text/html" }]
        shouldClose := false
        url := some (bytes "a.html") } := by
    decide +kernel
  have hfile : blankLineFiles (bytes "a.html") = .regular (bytes "\r\n\r\nhi") := by decide
  refine ⟨_, hmake, ?_⟩
  exact (readsBack_iff (.file false hfile hmake) true (by decide) (by decide) _).mpr (by decide)

/-- The response to a bad request. -/
def badRequest : Response where
  statusLine := bytes "Http/1.1 400 Bad Request"
  headers := [{ key := headerServer, value := serverIcee },
    { key := headerConnection, value := connectionClose },
    { key := headerContentLength, value := bytes "0" }]
  shouldClose := true
  url := none

/-- It is made by its factory, in any file system. -/
lemma make_badRequest (fs : FileSystem) : make400Response fs = .ok badRequest := rfl

/-- A response with a very long value. -/
lemma badRequest_of_long {value : Bytes} (hclean : Clean value) (hlen : value.length = 2 ^ 31) :
    let r := (badRequest.setShouldTransferContent true).changeHeaders [(headerServer, value)]
    r.headSize < 2 ^ 63 ∧ ∀ fs buffer content, ¬ ReadsBack fs r buffer content := by
  intro r
  have hsize : r.headSize = 24 + 2 + ((6 + value.length + 3) + (18 + (18 + 0))) + 2 := rfl
  refine ⟨by omega, fun fs buffer content h => ?_⟩
  have hmade := (MadeBy.badRequest (make_badRequest fs)).readable
  have hreadable : Readable fs [] (badRequest.setShouldTransferContent true) :=
    ⟨hmade.status, hmade.keys, hmade.values, hmade.file⟩
  have hchanged : Readable fs [] r := hreadable.changeHeaders _ fun change hchange => by
    rw [List.mem_singleton.mp hchange]
    exact hclean
  have hlt := hchanged.headSize_lt (changeHeaders_shouldTransferContent _ _) (by omega) h
  omega

/-- A value of some letters is clean. -/
lemma clean_replicate {n : ℕ} (hn : 0 < n) : Clean (List.replicate n 97) := by
  refine ⟨?_, ?_⟩
  · rw [ne_eq, List.replicate_eq_nil_iff]
    omega
  · simp [List.mem_replicate]

/-- With a value of `2^31` letters the response to a bad request is not read back, because the
cursor of `Split` is an `int`: behind the line of the value it is negative, and `substr` throws
`out_of_range`. -/
theorem long_value_is_not_read_back :
    make400Response blankLineFiles = .ok badRequest ∧ Clean (List.replicate (2 ^ 31) 97) ∧
    ((badRequest.setShouldTransferContent true).changeHeaders
      [(headerServer, List.replicate (2 ^ 31) 97)]).headSize < 2 ^ 63 ∧
    ¬ ReadsBack blankLineFiles ((badRequest.setShouldTransferContent true).changeHeaders
      [(headerServer, List.replicate (2 ^ 31) 97)]) [] [] := by
  have hclean := clean_replicate (show 0 < 2 ^ 31 by decide)
  obtain ⟨hsize, hnot⟩ := badRequest_of_long hclean List.length_replicate
  exact ⟨make_badRequest _, hclean, hsize, hnot _ _ _⟩

end Response

end Icee.Http
