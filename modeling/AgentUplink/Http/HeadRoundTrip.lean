import AgentUplink.Http.Head
import AgentUplink.Http.JsonGrammar

/-!
# Heads survive the wire

The JSON of a head denotes an object with exactly the expected members, so that parsing it
gives the head back when the policy's checks pass.
-/

open JsonText Fallible

namespace AgentUplink.Http

open List Decimal Utf8

/-! ## Writers append -/

theorem writeField_append (field : HeaderField) (out : List Char) :
    writeField field out = out ++ writeField field [] := by
  simp [writeField, writeString]

theorem writeFields_succ (index : Nat) (fields : List HeaderField) (out : List Char) :
    writeFields (index + 1) fields out
      = out ++ fields.flatMap fun field => ',' :: writeField field [] := by
  induction fields generalizing index out with
  | nil => simp [writeFields]
  | cons field fields ih =>
    rw [writeFields, if_pos (Nat.succ_pos index), ih, writeField_append]
    simp

theorem writeHeaders_append (headers : List HeaderField) (out : List Char) :
    writeHeaders headers out = out ++ writeHeaders headers [] := by
  cases headers with
  | nil => simp [writeHeaders, writeFields]
  | cons field fields =>
    have happend := writeField_append field (out ++ ['['])
    have happend' := writeField_append field ['[']
    simp only [writeHeaders, writeFields, writeFields_succ, lt_irrefl, if_false,
      nil_append, happend, happend']
    simp

theorem writeBodyLength_append (bodyLength : Option UInt64) (out : List Char) :
    writeBodyLength bodyLength out = out ++ writeBodyLength bodyLength [] := by
  cases bodyLength <;> simp [writeBodyLength]

/-! ## What the writers' texts denote -/

def fieldValue (field : HeaderField) : Value := .array [.string field.name, .string field.value]

def headersValue (headers : List HeaderField) : Value := .array (headers.map fieldValue)

def bodyLengthValue : Option UInt64 → Value
  | none => .null
  | some length => .string (String.ofList (text length.toNat))

theorem denotes_writeField (d : Nat) (field : HeaderField) :
    Denotes (d + 1) (writeField field []) (fieldValue field) := by
  have hname : Trailed (Element (Denotes d)) (writeString field.name []) (.string field.name) :=
    .compact (.compact (scalar_writeString field.name).denotes)
  have hvalue : Trailed (Element (Denotes d)) (writeString field.value []) (.string field.value) :=
    .compact (.compact (scalar_writeString field.value).denotes)
  have harray := Compound.array (.more hname (.last hvalue))
  refine .inr ?_
  simpa [writeField, writeString, fieldValue] using harray

theorem denotes_writeHeaders (d : Nat) (headers : List HeaderField) :
    Denotes (d + 2) (writeHeaders headers []) (headersValue headers) := by
  refine .inr ?_
  cases headers with
  | nil => exact .emptyArray ws_nil
  | cons field fields =>
    have hitems := Separated.compact (I := Trailed (Element (Denotes (d + 1))))
      (f := fun field => writeField field []) (g := fieldValue)
      (fun field => .compact (.compact (denotes_writeField d field))) field fields
    have harray := Compound.array hitems
    have htext : writeHeaders (field :: fields) []
        = '[' :: ((writeField field [] ++ fields.flatMap fun f => ',' :: writeField f []) ++ [']'])
        := by
      rw [writeHeaders, writeFields, writeFields_succ, if_neg (lt_irrefl 0), nil_append,
        writeField_append]
      simp
    rw [htext]
    exact harray

theorem scalar_writeBodyLength (bodyLength : Option UInt64) :
    Scalar (writeBodyLength bodyLength []) (bodyLengthValue bodyLength) := by
  cases bodyLength with
  | none => exact .literalNull
  | some length =>
    have hchars : Chars (text length.toNat) (text length.toNat) :=
      .ofPlain fun c hc => plain_of_isDigit (isDigit_of_mem_text hc)
    simpa [writeBodyLength, bodyLengthValue] using Scalar.string hchars

theorem number_decimal (n : Nat) : Number (text n) := by
  have hdigits : ∀ c ∈ text n, c.isDigit = true :=
    fun c hc => isDigit_of_mem_text hc
  refine ⟨[], text n, [], [], by simp, .inl rfl, ?_, .inl rfl, .inl rfl⟩
  by_cases hn : n = 0
  · subst hn
    exact .inl rfl
  · have hhead := head_text hn
    have hne := text_ne_nil n
    cases htext : text n with
    | nil => exact absurd htext hne
    | cons c ds =>
      rw [htext] at hdigits hhead
      refine .inr ⟨c, ds, rfl, hdigits c (mem_cons_self ..), ?_, fun d hd =>
        hdigits d (mem_cons_of_mem _ hd)⟩
      rintro rfl
      exact hhead rfl

def keyText (key : String) : List Char := '"' :: (key.toList ++ ['"', ':'])

variable {d : Nat} {t : List Char} {v : Value} {kind : RecordKind}

theorem member_text (key : String) (hkey : key.toList.all Parser.isPlain = true)
    (h : Denotes d t v) : Trailed (Member (Denotes d)) (keyText key ++ t) (key, v) := by
  have hplain := fun c hc => Parser.isPlain_iff.1 (all_eq_true.1 hkey c hc)
  have hmember := Member.compact (.ofPlain hplain) h
  refine .compact ?_
  simpa [keyText] using hmember

theorem requestHeadJson_toList (head : RequestHead) :
    (requestHeadJson head).toList = '{' ::
      (keyText "method" ++ writeString head.method.asStr [] ++ ',' ::
      (keyText "path" ++ writeString head.path [] ++ ',' ::
      (keyText "query" ++ writeString head.query [] ++ ',' ::
      (keyText "http_version" ++ writeString head.httpVersion.asStr [] ++ ',' ::
      (keyText "headers" ++ writeHeaders head.headers [] ++ ',' ::
      (keyText "body_length" ++ writeBodyLength head.bodyLength [])))))
      ++ ['}']) := by
  unfold requestHeadJson
  rw [String.toList_ofList, writeBodyLength_append, writeHeaders_append]
  simp [writeString, keyText]

theorem responseHeadJson_toList (head : ResponseHead) :
    (responseHeadJson head).toList = '{' ::
      (keyText "status" ++ text head.status.toNat ++ ',' ::
      (keyText "headers" ++ writeHeaders head.headers [] ++ ',' ::
      (keyText "body_length" ++ writeBodyLength head.bodyLength []))
      ++ ['}']) := by
  unfold responseHeadJson
  rw [String.toList_ofList, writeBodyLength_append, writeHeaders_append]
  simp [keyText]

def requestValue (head : RequestHead) : Value :=
  .object [("method", .string head.method.asStr), ("path", .string head.path),
    ("query", .string head.query), ("http_version", .string head.httpVersion.asStr),
    ("headers", headersValue head.headers), ("body_length", bodyLengthValue head.bodyLength)]

def responseValue (head : ResponseHead) : Value :=
  .object [("status", .number (String.ofList (text head.status.toNat))),
    ("headers", headersValue head.headers), ("body_length", bodyLengthValue head.bodyLength)]

theorem text_requestHeadJson (head : RequestHead) :
    Text maxDepth (requestHeadJson head).toList (requestValue head) := by
  have hmethod := member_text (d := 2) "method" rfl
    (scalar_writeString head.method.asStr).denotes
  have hpath := member_text (d := 2) "path" rfl (scalar_writeString head.path).denotes
  have hquery := member_text (d := 2) "query" rfl (scalar_writeString head.query).denotes
  have hversion := member_text (d := 2) "http_version" rfl
    (scalar_writeString head.httpVersion.asStr).denotes
  have hheaders := member_text (d := 2) "headers" rfl (denotes_writeHeaders 0 head.headers)
  have hlength := member_text (d := 2) "body_length" rfl
    (scalar_writeBodyLength head.bodyLength).denotes
  rw [requestHeadJson_toList]
  exact .compact (.compact (.inr (.object (.more hmethod (.more hpath (.more hquery
    (.more hversion (.more hheaders (.last hlength)))))) (by simp))))

theorem text_responseHeadJson (head : ResponseHead) :
    Text maxDepth (responseHeadJson head).toList (responseValue head) := by
  have hstatus := member_text (d := 2) "status" rfl
    (Scalar.number (number_decimal head.status.toNat)).denotes
  have hheaders := member_text (d := 2) "headers" rfl (denotes_writeHeaders 0 head.headers)
  have hlength := member_text (d := 2) "body_length" rfl
    (scalar_writeBodyLength head.bodyLength).denotes
  rw [responseHeadJson_toList]
  exact .compact (.compact (.inr (.object (.more hstatus (.more hheaders (.last hlength)))
    (by simp))))

/-! ## Reading the members back -/

theorem parse_asStr_method (method : Method) : Method.parse method.asStr = .ok method := by
  cases method <;> rfl

theorem parse_asStr_version (version : HttpVersion) :
    HttpVersion.parse version.asStr = .ok version := by
  cases version <;> rfl

theorem parseHeaders_headersValue (headers : List HeaderField) :
    parseHeaders (headersValue headers) = .ok headers := by
  show (headers.map fieldValue).mapM parseField = _
  induction headers with
  | nil => rfl
  | cons field fields ih =>
    rw [map_cons, mapM_cons, ih]
    rfl

theorem le_ofDigitChars (cs : List Char) (n : Nat) : n ≤ Nat.ofDigitChars 10 cs n := by
  induction cs generalizing n with
  | nil => simp
  | cons c cs ih =>
    rw [Nat.ofDigitChars_cons]
    have := ih (10 * n + (c.toNat - '0'.toNat))
    omega

theorem foldlM_addDigit {cs : List Char} {n : Nat}
    (h : Nat.ofDigitChars 10 cs n < Machine.wordBound) :
    cs.foldlM addDigit n = some (Nat.ofDigitChars 10 cs n) := by
  induction cs generalizing n with
  | nil => simp
  | cons c cs ih =>
    rw [Nat.ofDigitChars_cons] at h ⊢
    have hle := le_ofDigitChars cs (10 * n + (c.toNat - '0'.toNat))
    have hadd : addDigit n c = some (10 * n + (c.toNat - '0'.toNat)) := by
      rw [addDigit, if_pos (by omega), Machine.checkedAdd_of_lt (by omega), mul_comm]
    rw [foldlM_cons, hadd]
    exact ih h

theorem parseCanonicalU64_text (n : UInt64) :
    parseCanonicalU64 (String.ofList (text n.toNat)) = .ok n := by
  obtain ⟨hne, hzero, hdigits⟩ := canonical_text n.toNat
  have hall : (text n.toNat).all Char.isDigit = true := by simpa using hdigits
  have hvalue : Nat.ofDigitChars 10 (text n.toNat) 0 = n.toNat := value_text n.toNat
  have hfold : (text n.toNat).foldlM addDigit 0 = some n.toNat := by
    rw [foldlM_addDigit, hvalue]
    rw [hvalue]
    exact n.toNat_lt
  unfold parseCanonicalU64
  rw [String.toList_ofList]
  rw [if_neg (by simp [hne, hall]), if_neg hzero, hfold]
  simp

theorem parseBodyLength_bodyLengthValue (bodyLength : Option UInt64) :
    parseBodyLength (bodyLengthValue bodyLength) = .ok bodyLength := by
  cases bodyLength with
  | none => rfl
  | some length =>
    show (parseCanonicalU64 _).map some = _
    rw [parseCanonicalU64_text]
    rfl

theorem parseStatus_text {status : UInt16} (hlow : 200 ≤ status.toNat)
    (hhigh : status.toNat ≤ 599) :
    parseStatus (String.ofList (text status.toNat)) = .ok status := by
  have hdigits : ∀ c ∈ text status.toNat, c.isDigit = true :=
    fun c hc => isDigit_of_mem_text hc
  have hascii : ∀ c ∈ text status.toNat, c.val ≤ 127 := by
    intro c hc
    have hrange := Char.isDigit_iff_toNat.1 (hdigits c hc)
    have h57 : '9'.toNat = 57 := rfl
    show c.toNat ≤ 127
    omega
  have hwidth : (text status.toNat).length = 3 :=
    width_eq (k := 2) (by decide) (by omega) (by omega)
  unfold parseStatus
  rw [utf8ByteSize_of_ascii hascii, hwidth, String.toList_ofList, value_text]
  rw [if_neg (by simpa using hdigits), if_pos ⟨hlow, hhigh⟩]
  simp

/-! ## Heads that pass -/

structure RequestHead.Passes (policy : RequestPolicy) (head : RequestHead) : Prop where
  path : validatePath head.path = .ok ()
  route : policy.routeAllowed head.method head.path = true
  version : policy.versionAllowed head.httpVersion = true
  query : ∃ pairs, validateQuery head.query policy.query = .ok pairs
  headers : validateHeaders head.headers policy.headers = .ok ()

structure ResponseHead.Passes (policy : ResponsePolicy) (requestMethod : Method)
    (head : ResponseHead) : Prop where
  status : 200 ≤ head.status.toNat ∧ head.status.toNat ≤ 599
  headers : validateHeaders head.headers policy.headers = .ok ()
  zeroBody : requiresZeroBody requestMethod head.status = true → head.bodyLength = some 0

theorem parse_bytes {s : String} (h : Text maxDepth s.toList v) : parse (bytes s) = .ok v :=
  parse_eq_ok.2 ⟨s, rfl, h⟩

theorem parseRequestHead_json {policy : RequestPolicy} {head : RequestHead}
    (h : head.Passes policy) :
    parseRequestHead (bytes (requestHeadJson head)) policy = .ok head := by
  obtain ⟨pairs, hquery⟩ := h.query
  have hfields : exactFields (requestValue head) requestKeys = .ok
      [.string head.method.asStr, .string head.path, .string head.query,
        .string head.httpVersion.asStr, headersValue head.headers,
        bodyLengthValue head.bodyLength] := rfl
  unfold parseRequestHead
  rw [parse_bytes (text_requestHeadJson head), except_ok_bind, hfields, except_ok_bind]
  simp only [asStr, except_ok_bind, parse_asStr_method, parse_asStr_version,
    parseHeaders_headersValue, parseBodyLength_bodyLengthValue, h.path, h.route, h.version,
    hquery, h.headers, Except.mapError, not_true_eq_false, if_false]

theorem parseResponseHead_json {policy : ResponsePolicy} {requestMethod : Method}
    {head : ResponseHead} (h : head.Passes policy requestMethod) :
    parseResponseHead (bytes (responseHeadJson head)) policy requestMethod = .ok head := by
  have hfields : exactFields (responseValue head) responseKeys = .ok
      [.number (String.ofList (text head.status.toNat)), headersValue head.headers,
        bodyLengthValue head.bodyLength] := rfl
  have hzero : ¬ (requiresZeroBody requestMethod head.status ∧ head.bodyLength ≠ some 0) :=
    fun hbody => hbody.2 (h.zeroBody hbody.1)
  unfold parseResponseHead
  rw [parse_bytes (text_responseHeadJson head), except_ok_bind, hfields, except_ok_bind]
  simp only [except_ok_bind, parseStatus_text h.status.1 h.status.2, parseHeaders_headersValue,
    parseBodyLength_bodyLengthValue, h.headers, Except.mapError, if_neg hzero]

theorem encodeRecord_head (hkind : kind = .requestHead ∨ kind = .responseHead) {text : String}
    (hne : text ≠ "") (hlen : text.utf8ByteSize ≤ maxHeadPayloadLen) (out : List UInt8) :
    encodeRecord kind (bytes text) out = .ok (out ++ recordBytes kind (bytes text)) := by
  have hpos : text.utf8ByteSize ≠ 0 := fun h => hne (String.utf8ByteSize_eq_zero_iff.1 h)
  refine encodeRecord_eq_ok ?_ out
  rw [length_bytes]
  rcases hkind with rfl | rfl
  · rw [checkLength, if_neg hpos, if_neg (by omega)]
  · rw [checkLength, if_neg hpos, if_neg (by omega)]

theorem encodeHead_eq {H : Type} [DecidableEq H]
    (hkind : kind = .requestHead ∨ kind = .responseHead) {json : H → String}
    {parse : List UInt8 → Except CodecError H} {head : H} (hne : json head ≠ "")
    (h : parse (bytes (json head)) = .ok head) (out : List UInt8) :
    encodeHead kind json parse head out
      = if (json head).utf8ByteSize > maxHeadPayloadLen then .error .headTooLarge
        else .ok (out ++ recordBytes kind (bytes (json head))) := by
  unfold encodeHead
  by_cases hlarge : (json head).utf8ByteSize > maxHeadPayloadLen
  · rw [if_pos hlarge, if_pos hlarge]
  · rw [if_neg hlarge, if_neg hlarge, h, except_ok_bind, if_neg (by simp),
      encodeRecord_head hkind hne (by omega)]

theorem ne_empty_of_toList {s : String} {c : Char} (h : s.toList = c :: t) : s ≠ "" := by
  rintro rfl
  cases h

/-- Heads that pass their checks survive the JSON codec, and are refused by the encoder only
for the size of their text. The JSON parser itself accepts exactly the texts of the grammar
that nest at most three deep without a repeated key, and reads back every string that was
written. -/
theorem heads_round_trip :
    (∀ (policy : RequestPolicy) (head : RequestHead), head.Passes policy →
      parseRequestHead (bytes (requestHeadJson head)) policy = .ok head ∧
      ∀ out, encodeRequestHead head policy out =
        if (requestHeadJson head).utf8ByteSize > 16 * 1024 then .error .headTooLarge
        else .ok (out ++ recordBytes .requestHead (bytes (requestHeadJson head)))) ∧
    (∀ (policy : ResponsePolicy) (requestMethod : Method) (head : ResponseHead),
      head.Passes policy requestMethod →
      parseResponseHead (bytes (responseHeadJson head)) policy requestMethod = .ok head ∧
      ∀ out, encodeResponseHead head policy requestMethod out =
        if (responseHeadJson head).utf8ByteSize > 16 * 1024 then .error .headTooLarge
        else .ok (out ++ recordBytes .responseHead (bytes (responseHeadJson head)))) ∧
    (∀ bytes v, parse bytes = .ok v ↔ ∃ s, bytes = Utf8.bytes s ∧ Text 3 s.toList v) ∧
    ∀ s, parse (bytes (String.ofList (writeString s []))) = .ok (.string s) := by
  refine ⟨?_, ?_, fun bytes v => parse_eq_ok, ?_⟩
  · intro policy head h
    have hparse := parseRequestHead_json h
    exact ⟨hparse, encodeHead_eq (.inl rfl) (ne_empty_of_toList (requestHeadJson_toList head))
      hparse⟩
  · intro policy requestMethod head h
    have hparse := parseResponseHead_json h
    exact ⟨hparse, encodeHead_eq (.inr rfl) (ne_empty_of_toList (responseHeadJson_toList head))
      hparse⟩
  · intro s
    refine parse_bytes ?_
    rw [String.toList_ofList]
    exact .compact (.compact (scalar_writeString s).denotes)

def getPolicy : RequestPolicy where
  routes := [⟨.get, "/mcp"⟩]
  httpVersions := [.http11]
  query := ⟨[⟨"cursor", .singleton⟩]⟩
  headers := ⟨[⟨"accept", .repeatable⟩], []⟩
  bodyLimit := 1024
  bounded := by decide

def getHead : RequestHead where
  method := .get
  path := "/mcp"
  query := "cursor=%41"
  httpVersion := .http11
  headers := [⟨"accept", "text/html;q=\"0.5\""⟩]
  bodyLength := some 0

def pagePolicy : ResponsePolicy where
  headers := ⟨[⟨"content-type", .singleton⟩], []⟩
  bodyLimit := 1024
  bounded := by decide

def pageHead : ResponseHead := ⟨200, [⟨"content-type", "text/plain"⟩], some 3⟩

theorem heads_round_trip_get :
    getHead.Passes getPolicy ∧
      parseRequestHead (bytes (requestHeadJson getHead)) getPolicy = .ok getHead ∧
      pageHead.Passes pagePolicy .get ∧
      parseResponseHead (bytes (responseHeadJson pageHead)) pagePolicy .get = .ok pageHead := by
  have hpasses : getHead.Passes getPolicy :=
    { path := by decide +kernel
      route := by decide
      version := by decide
      query := ⟨[("cursor", "A")], by decide +kernel⟩
      headers := by decide +kernel }
  have hpage : pageHead.Passes pagePolicy .get :=
    { status := by decide
      headers := by decide +kernel
      zeroBody := by decide }
  exact ⟨hpasses, (heads_round_trip.1 getPolicy getHead hpasses).1, hpage,
    (heads_round_trip.2.1 pagePolicy .get pageHead hpage).1⟩

end AgentUplink.Http
