import MemoryTraceTool.AddrValidate
import MemoryTraceTool.Lib.Json

/-!
# Requests to the HTTP server

`http_thread_fn` takes what one `recv` returns for the whole request, cuts it
at the first line end and compares the path with those of its pages.
-/

namespace MemoryTraceTool.HttpRequests

open Json AddrValidate

def mttHttpBufSize : Nat := 8192

def mttHttpMaxPath : Nat := 256

/-- The results of `recv`: bytes that were there, an error after which the
call is repeated, or anything else that ends the connection. -/
inductive Received where
  | bytes (segment : Bytes)
  | again
  | ended
  deriving DecidableEq, Repr

/-- The handlers. -/
inductive Page where
  | root
  | apiData
  | apiLeaks
  | notFound
  deriving DecidableEq, Repr

/-- The call of `recv` with so many retries left; a segment of no bytes is the
end of the connection. -/
def receive : Nat → List Received → Option Bytes
  | _, [] => none
  | _, .ended :: _ => none
  | _, .bytes segment :: _ =>
      if segment = [] then none else some (segment.take (mttHttpBufSize - 1))
  | 0, .again :: _ => none
  | retries + 1, .again :: rest => receive retries rest

/-- The text before the first `"\r\n"`. -/
def cutLine : Bytes → Bytes
  | [] => []
  | 13 :: 10 :: _ => []
  | byte :: rest => byte :: cutLine rest

/-- `parse_request`: what stands between `GET ` and the next space. -/
def parseRequest (req : Bytes) (maxlen : Nat) : Option Bytes :=
  if ascii "GET " <+: req then
    let start := req.drop 4
    if 32 ∈ start then
      some ((start.takeWhile fun byte => byte ≠ 32).take (maxlen - 1))
    else none
  else none

/-- The comparisons of the path. -/
def pageAt (path : Bytes) : Page :=
  if path = ascii "/" then .root
  else if path = ascii "/api/data" then .apiData
  else if path = ascii "/api/leaks" then .apiLeaks
  else .notFound

/-- What is sent for the contents of the buffer. -/
def respond (reqBuf : Bytes) : Page :=
  match parseRequest (cutLine (cString reqBuf)) mttHttpMaxPath with
  | none => .notFound
  | some path => pageAt path

/-- One turn of the accept loop; without a request nothing is sent. -/
def httpThreadFn (results : List Received) : Option Page :=
  (receive 3 results).map respond

/-! ## The page that a request asks for -/

/-- The path between `GET ` and the next space of the first line. -/
def requestedPath (request : Bytes) : Option Bytes :=
  let line := cutLine request
  if ascii "GET " <+: line ∧ 32 ∈ line.drop 4 then
    some ((line.drop 4).takeWhile fun byte => byte ≠ 32)
  else none

/-- The page that a whole request asks for. -/
def requestedPage (request : Bytes) : Page :=
  match requestedPath request with
  | none => .notFound
  | some path => pageAt path

/-- However a request is cut, it is answered as in one piece, with the page
that it asks for. -/
def AnswersCut (request first : Bytes) (rest : List Bytes) : Prop :=
  httpThreadFn ((first :: rest).map .bytes) =
      httpThreadFn [.bytes request] ∧
    httpThreadFn ((first :: rest).map .bytes) = some (requestedPage request)

/-! ## The first line -/

theorem cutLine_append {front rest : Bytes}
    (noEnd : ¬ [13, 10] <:+: front) (last : front.getLast? ≠ some 13) :
    cutLine (front ++ rest) = front ++ cutLine rest := by
  induction front with
  | nil => rfl
  | cons byte front induction =>
      have inner : ¬ [13, 10] <:+: front := fun infix_ =>
        noEnd (infix_.trans (List.infix_cons (List.infix_refl front)))
      rw [List.cons_append]
      cases front with
      | nil =>
          have notReturn : byte ≠ 13 := by
            rintro rfl
            exact last rfl
          exact cutLine.eq_3 _ _ fun text isReturn _ => notReturn isReturn
      | cons second front =>
          have lastInner : (second :: front).getLast? ≠ some 13 := by
            rw [List.getLast?_cons_cons] at last
            exact last
          rw [cutLine, induction inner lastInner]
          · rfl
          · intro text isReturn same
            rw [List.cons_append] at same
            obtain ⟨isNewline, -⟩ := List.cons.inj same
            apply noEnd
            rw [isReturn, isNewline]
            exact (List.prefix_append [13, 10] front).isInfix

theorem cutLine_isPrefix (text : Bytes) : cutLine text <+: text := by
  induction text using cutLine.induct with
  | case1 => exact List.prefix_refl _
  | case2 => exact List.nil_prefix
  | case3 byte rest notEnd induction =>
      rw [cutLine]
      · exact List.cons_prefix_cons.mpr ⟨rfl, induction⟩
      · exact notEnd

theorem not_infix_cutLine (text : Bytes) : ¬ [13, 10] <:+: cutLine text := by
  induction text using cutLine.induct with
  | case1 => simp [cutLine]
  | case2 => simp [cutLine]
  | case3 byte rest notEnd induction =>
      rw [cutLine.eq_3 _ _ notEnd, List.infix_cons_iff]
      rintro (here | later)
      · obtain ⟨isReturn, newline⟩ := List.cons_prefix_cons.mp here
        obtain ⟨tail, same⟩ := newline.trans (cutLine_isPrefix rest)
        exact notEnd tail isReturn.symm same.symm
      · exact induction later

theorem cutLine_of_prefix {front text rest : Bytes}
    (line : cutLine text = front ++ 32 :: rest) {longer : Bytes}
    (extends_ : front ++ [32] <+: longer) :
    ∃ more, cutLine longer = front ++ 32 :: more := by
  obtain ⟨tail, rfl⟩ := extends_
  refine ⟨cutLine tail, ?_⟩
  rw [cutLine_append]
  · simp
  · intro inside
    apply not_infix_cutLine text
    rw [line]
    refine inside.trans ⟨[], rest, ?_⟩
    simp
  · simp

theorem requestedPath_eq_some_iff {request path : Bytes} :
    requestedPath request = some path ↔
      32 ∉ path ∧
        ∃ rest, cutLine request = ascii "GET " ++ path ++ 32 :: rest := by
  unfold requestedPath
  dsimp only
  constructor
  · intro found
    simp only [Option.ite_none_right_eq_some, Option.some.injEq] at found
    obtain ⟨⟨⟨start, line⟩, space⟩, rfl⟩ := found
    have dropped : (cutLine request).drop 4 = start := by
      rw [← line]
      rfl
    rw [dropped] at space ⊢
    refine ⟨?_, ?_⟩
    · intro member
      simpa using List.mem_takeWhile_imp member
    · have split := List.takeWhile_append_dropWhile
        (p := fun byte => decide (byte ≠ 32)) (l := start)
      cases after : start.dropWhile fun byte => decide (byte ≠ 32) with
      | nil =>
          have all := List.dropWhile_eq_nil_iff.mp after 32 space
          simp at all
      | cons byte rest =>
          have isSpace : byte = 32 := by
            have stops := List.head?_dropWhile_not
              (fun byte => decide (byte ≠ (32 : UInt8))) start
            rw [after] at stops
            simpa using stops
          refine ⟨rest, ?_⟩
          rw [after, isSpace] at split
          rw [List.append_assoc, split, line]
  · rintro ⟨noSpace, rest, line⟩
    have dropped : (cutLine request).drop 4 = path ++ 32 :: rest := by
      rw [line]
      rfl
    have isGet : ascii "GET " <+: cutLine request := by
      rw [line, List.append_assoc]
      exact List.prefix_append _ _
    rw [dropped, if_pos ⟨isGet, by simp⟩]
    congr 1
    have passes : ∀ byte ∈ path, decide (byte ≠ 32) = true := by
      intro byte member
      apply decide_eq_true
      rintro rfl
      exact noSpace member
    rw [List.takeWhile_append_of_pos passes]
    simp

theorem length_get : (ascii "GET ").length = 4 := rfl

theorem requestedPath_isPrefix {request front : Bytes}
    (isPrefix : front <+: request) {path : Bytes} :
    requestedPath front = some path ↔
      requestedPath request = some path ∧ path.length + 5 ≤ front.length := by
  rw [requestedPath_eq_some_iff, requestedPath_eq_some_iff]
  constructor
  · rintro ⟨noSpace, rest, line⟩
    have reaches : ascii "GET " ++ path ++ [32] <+: front := by
      refine List.IsPrefix.trans ?_ (cutLine_isPrefix front)
      rw [line]
      exact ⟨rest, by simp⟩
    refine ⟨⟨noSpace, cutLine_of_prefix line (reaches.trans isPrefix)⟩, ?_⟩
    have length := reaches.length_le
    simp only [List.length_append, length_get, List.length_singleton] at length
    omega
  · rintro ⟨⟨noSpace, rest, line⟩, long⟩
    have reaches : ascii "GET " ++ path ++ [32] <+: request := by
      refine List.IsPrefix.trans ?_ (cutLine_isPrefix request)
      rw [line]
      exact ⟨rest, by simp⟩
    have reachesFront := List.prefix_of_prefix_length_le reaches isPrefix (by
      simp only [List.length_append, length_get, List.length_singleton]
      omega)
    exact ⟨noSpace, cutLine_of_prefix line reachesFront⟩

/-! ## The whole request -/

theorem parseRequest_cutLine (text : Bytes) (maxlen : Nat) :
    parseRequest (cutLine text) maxlen =
      (requestedPath text).map fun path => path.take (maxlen - 1) := by
  unfold parseRequest requestedPath
  by_cases isGet : ascii "GET " <+: cutLine text
  · by_cases space : 32 ∈ (cutLine text).drop 4
    · simp [isGet, space]
    · simp [isGet, space]
  · simp [isGet]

theorem pageAt_take (path : Bytes) :
    pageAt (path.take (mttHttpMaxPath - 1)) = pageAt path := by
  by_cases short : path.length ≤ mttHttpMaxPath - 1
  · rw [List.take_of_length_le short]
  · have cut : (path.take (mttHttpMaxPath - 1)).length = 255 := by
      rw [List.length_take]
      simp only [mttHttpMaxPath] at short ⊢
      omega
    have differs (page : Bytes) (small : page.length < 255) :
        path.take (mttHttpMaxPath - 1) ≠ page ∧ path ≠ page := by
      constructor
      · rintro rfl
        omega
      · rintro rfl
        simp only [mttHttpMaxPath] at short
        omega
    have root := differs (ascii "/") (by decide)
    have data := differs (ascii "/api/data") (by decide)
    have leaks := differs (ascii "/api/leaks") (by decide)
    simp only [pageAt, root.1, root.2, data.1, data.2, leaks.1, leaks.2,
      if_false]

theorem cString_prefix (text : Bytes) : cString text <+: text :=
  List.takeWhile_prefix _

theorem path_prefix_cString {text path : Bytes}
    (asked : requestedPath text = some path) (noZero : (0 : UInt8) ∉ path) :
    ascii "GET " ++ path ++ [32] <+: cString text := by
  obtain ⟨-, rest, line⟩ := requestedPath_eq_some_iff.mp asked
  obtain ⟨tail, same⟩ : ascii "GET " ++ path ++ [32] <+: text := by
    refine List.IsPrefix.trans ?_ (cutLine_isPrefix text)
    rw [line]
    exact ⟨rest, by simp⟩
  have passes : ∀ byte ∈ ascii "GET " ++ path ++ [32],
      decide (byte ≠ 0) = true := by
    intro byte member
    apply decide_eq_true
    rintro rfl
    simp only [List.mem_append, List.mem_singleton] at member
    rcases member with (get | inPath) | space
    · revert get
      decide
    · exact noZero inPath
    · cases space
  rw [← same, cString, List.takeWhile_append_of_pos passes]
  exact List.prefix_append _ _

/-- What the code reads of a buffer, a terminator inside it included, leads to
the page that the bytes ask for. -/
theorem respond_eq (reqBuf : Bytes) :
    respond reqBuf = requestedPage reqBuf := by
  have front := cString_prefix reqBuf
  unfold respond requestedPage
  rw [parseRequest_cutLine]
  cases read : requestedPath (cString reqBuf) with
  | some path =>
      rw [((requestedPath_isPrefix front).mp read).1]
      exact pageAt_take path
  | none =>
      cases asked : requestedPath reqBuf with
      | none => rfl
      | some path =>
          -- the path of a page has no terminator, so it would have been read
          have zero : (0 : UInt8) ∈ path := by
            by_contra noZero
            have reaches := path_prefix_cString asked noZero
            have length := reaches.length_le
            simp only [List.length_append, length_get,
              List.length_singleton] at length
            have found := (requestedPath_isPrefix front).mpr
              ⟨asked, by omega⟩
            rw [read] at found
            cases found
          have notPage (page : Bytes) (clean : (0 : UInt8) ∉ page) :
              path ≠ page := by
            rintro rfl
            exact clean zero
          simp only [Option.map_none, pageAt,
            notPage (ascii "/") (by decide),
            notPage (ascii "/api/data") (by decide),
            notPage (ascii "/api/leaks") (by decide), if_false]

theorem httpThreadFn_bytes {first : Bytes} {rest : List Bytes}
    (nonempty : first ≠ []) (fits : first.length ≤ mttHttpBufSize - 1) :
    httpThreadFn ((first :: rest).map .bytes) =
      some (requestedPage first) := by
  simp only [httpThreadFn, List.map_cons, receive, nonempty, if_false,
    List.take_of_length_le fits, Option.map_some, respond_eq]

/-- Up to three calls of `recv` that are to be repeated change nothing. -/
theorem httpThreadFn_again (results : List Received) {tries : Nat}
    (few : tries ≤ 3) {segment : Bytes} :
    httpThreadFn (List.replicate tries .again ++ .bytes segment :: results) =
      httpThreadFn (.bytes segment :: results) := by
  have skips : ∀ retries tries, tries ≤ retries →
      receive retries
          (List.replicate tries .again ++ .bytes segment :: results) =
        receive 0 (.bytes segment :: results) := by
    intro retries
    induction retries with
    | zero =>
        intro tries few
        rw [Nat.le_zero.mp few]
        rfl
    | succ retries induction =>
        intro tries few
        cases tries with
        | zero => rfl
        | succ tries =>
            rw [List.replicate_succ, List.cons_append, receive]
            exact induction tries (Nat.le_of_succ_le_succ few)
  rw [httpThreadFn, skips 3 tries few]
  rfl

/-- A request cut into segments is answered like the whole exactly if it is
for no page or its first segment reaches past its path. -/
theorem answersCut_iff (request first : Bytes) (rest : List Bytes)
    (fits : request.length ≤ mttHttpBufSize - 1)
    (cut : (first :: rest).flatten = request)
    (nonempty : ∀ segment ∈ first :: rest, segment ≠ []) :
    AnswersCut request first rest ↔
      requestedPage request = .notFound ∨
        ∃ path, requestedPath request = some path ∧
          path.length + 5 ≤ first.length := by
  have front : first <+: request := by
    rw [← cut, List.flatten_cons]
    exact List.prefix_append _ _
  have firstNonempty := nonempty first List.mem_cons_self
  have requestNonempty : request ≠ [] := by
    rintro rfl
    exact firstNonempty (List.prefix_nil.mp front)
  have onFirst : httpThreadFn ((first :: rest).map .bytes) =
      some (requestedPage first) :=
    httpThreadFn_bytes firstNonempty (front.length_le.trans fits)
  have onWhole : httpThreadFn ([request].map .bytes) =
      some (requestedPage request) :=
    httpThreadFn_bytes requestNonempty fits
  rw [List.map_singleton] at onWhole
  unfold AnswersCut
  rw [onFirst, onWhole, and_self, Option.some.injEq]
  constructor
  · intro same
    by_cases missing : requestedPage request = .notFound
    · exact .inl missing
    · right
      rw [← same] at missing
      unfold requestedPage at missing
      cases found : requestedPath first with
      | none => simp [found] at missing
      | some path =>
          exact ⟨path, (requestedPath_isPrefix front).mp found⟩
  · rintro (missing | ⟨path, asked, long⟩)
    · cases found : requestedPath first with
      | none =>
          rw [missing]
          simp only [requestedPage, found]
      | some path =>
          have asked := ((requestedPath_isPrefix front).mp found).1
          simp only [requestedPage, found, asked]
    · have found := (requestedPath_isPrefix front).mpr ⟨asked, long⟩
      simp only [requestedPage, found, asked]

theorem answersCut_wholeLine :
    AnswersCut (ascii "GET /api/data HTTP/1.0\r\n\r\n")
      (ascii "GET /api/data H") [ascii "TTP/1.0\r\n", ascii "\r\n"] :=
  (answersCut_iff _ _ _ (by decide) (by decide) (by decide)).mpr
    (.inr ⟨ascii "/api/data", by decide, by decide⟩)

/-- The first segment ends inside the path. -/
theorem not_answersCut_inPath :
    ¬ AnswersCut (ascii "GET /api/data HTTP/1.0\r\n\r\n")
      (ascii "GET /api") [ascii "/data HTTP/1.0\r\n\r\n"] := by
  rintro ⟨same, -⟩
  exact absurd same (by decide)

end MemoryTraceTool.HttpRequests
