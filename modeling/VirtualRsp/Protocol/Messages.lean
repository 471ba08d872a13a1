import VirtualRsp.Lpa.Hexutil
import VirtualRsp.Protocol.Lines

/-!
# Messages between the LPA and the card

A request and its response are lines of JSON with the bytes in hexadecimal. The LPA's socket driver
writes requests and reads responses (`jsonRequest`, `jsonResponse`), the daemon reads requests and
writes responses (`protocolParseRequest`, `protocolGenerateResponse`). The JSON library is a
parameter (`CJson`); `CJson.Transfers` says that an object survives printing and parsing and is
printed without line breaks.

* `parseRequest_requestObject`: the daemon reads the function and the bytes that the driver sent;
* `jsonResponse_fits`, `jsonResponse_long`: the driver reads the code and the bytes that the daemon
  sent, unless the line exceeds its read buffer, and then it fails.
-/

namespace VirtualRsp.Protocol

open Lpa Framing

/-! ## JSON -/

/-- A JSON value; numbers are whole, and the members of an object are in order. -/
inductive Json
  | null
  | number (valueint : ℤ)
  | string (valuestring : Bytes)
  | object (members : List (Bytes × Json))

/-- The JSON library. -/
structure CJson where
  printUnformatted : Json → Bytes
  parse : Bytes → Option Json

/-- The value survives printing and parsing, on a line of its own. -/
structure CJson.Transfers (c : CJson) (value : Json) : Prop where
  parse_print : c.parse (c.printUnformatted value) = some value
  newline_notMem : newline ∉ c.printUnformatted value
  zero_notMem : 0 ∉ c.printUnformatted value

/-- `tolower`. -/
def toLower (c : UInt8) : UInt8 := if 65 ≤ c ∧ c ≤ 90 then c + 32 else c

/-- The first member whose name agrees up to case. -/
def getObjectItem (object : Json) (name : Bytes) : Option Json :=
  match object with
  | .object members =>
    (members.find? fun m => m.1.map toLower = name.map toLower).map (·.2)
  | _ => none

/-- The bytes in hexadecimal, in a buffer whose size has 32 bits. A negative number of digits is an
error. -/
def hexString (bytes : Bytes) : Option (Option Bytes) :=
  (bin2hex ((2 * bytes.length + 1) % 2 ^ 32) bytes).map fun r => if r.2 < 0 then none else r.1

/-! ## Requests -/

/-- The object of a request. -/
def requestObject (func : Bytes) (param : Json) : Json :=
  .object [(ascii "type", .string (ascii "apdu")),
    (ascii "payload", .object [(ascii "func", .string func), (ascii "param", param)])]

/-- `json_request`: the line to send, without its newline. -/
def jsonRequest (c : CJson) (func : Bytes) (param : Option Bytes) : Option (Option Bytes) := do
  let paramItem : Option Json ← (match param with
    | none | some [] => some (some .null)
    | some bytes => (hexString bytes).map (Option.map .string) : Option (Option Json))
  return paramItem.map fun item => c.printUnformatted (requestObject func item)

/-- Bytes behind a pointer: none are a null pointer. -/
def pointer : Bytes → Option Bytes
  | [] => none
  | bytes => some bytes

/-- `protocol_parse_request`: the function and the pointer to the parameter. -/
def protocolParseRequest (c : CJson) (line : Bytes) : Option (Bytes × Option Bytes) := do
  let root ← c.parse line
  match getObjectItem root (ascii "type") with
  | some (.string type) =>
    if type ≠ ascii "apdu" then none
    else
      match getObjectItem root (ascii "payload") with
      | some (.object payload) =>
        match getObjectItem (.object payload) (ascii "func") with
        | some (.string func) =>
          match getObjectItem (.object payload) (ascii "param") with
          | some (.string paramHex) =>
            let paramLen := paramHex.length / 2 % 2 ^ 32
            if paramLen > 0 then
              (hex2bin paramLen paramHex).map fun bytes => (func, some bytes)
            else some (func, none)
          | _ => some (func, none)
        | _ => none
      | _ => none
  | _ => none

/-! ## Responses -/

/-- The object of a response. -/
def responseObject (ecode : ℤ) (dataHex : Option Bytes) : Json :=
  .object [(ascii "type", .string (ascii "apdu")),
    (ascii "payload", .object ((ascii "ecode", .number ecode) ::
      (dataHex.map fun hex => (ascii "data", .string hex)).toList))]

/-- `protocol_generate_response`: the line to send, without its newline. -/
def protocolGenerateResponse (c : CJson) (ecode : ℤ) (data : Option Bytes) :
    Option (Option Bytes) :=
  match data with
  | none | some [] => some (some (c.printUnformatted (responseObject ecode none)))
  | some bytes =>
    (hexString bytes).map (Option.map fun hex =>
      c.printUnformatted (responseObject ecode (some hex)))

/-- A number as an `int`: out of range it is the nearest `int`. -/
def valueint (n : ℤ) : ℤ := max (-2 ^ 31) (min n (2 ^ 31 - 1))

/-- `json_response` for a caller that wants the data: the code and the pointer to the data. -/
def jsonResponse (c : CJson) (r : LineReader) :
    Option (Option (ℤ × Option Bytes) × LineReader) := do
  let (line, r') ← socketRecvLine r
  let response : Option (ℤ × Option Bytes) := do
    let root ← c.parse (← line)
    match getObjectItem root (ascii "type") with
    | some (.string type) =>
      if ascii "apdu" ≠ type then none
      else
        match getObjectItem root (ascii "payload") with
        | some (.object payload) =>
          match getObjectItem (.object payload) (ascii "ecode") with
          | some (.number ecode) =>
            match getObjectItem (.object payload) (ascii "data") with
            | some (.string hex) =>
              (hex2bin (hex.length / 2 % 2 ^ 32) hex).map fun bytes => (valueint ecode, some bytes)
            | _ => some (valueint ecode, none)
          | _ => none
        | _ => none
    | _ => none
  return (response, r')

/-! ## Both directions -/

variable {c : CJson}

theorem hexString_eq {bytes : Bytes} (h : bytes.length < 2 ^ 30) :
    hexString bytes = some (some (bytes.flatMap hexByte)) := by
  rw [hexString, Nat.mod_eq_of_lt (by omega), bin2hex_of_lt le_rfl (by omega), Option.map_some,
    asInt_of_lt (by omega), if_neg (by omega)]

/-- The digits read back into a block of the size that is computed for them. -/
theorem hex2bin_hexText {bytes : Bytes} (h : bytes.length < 2 ^ 30) :
    (bytes.flatMap hexByte).length / 2 % 2 ^ 32 = bytes.length ∧
      hex2bin bytes.length (bytes.flatMap hexByte) = some bytes := by
  have hlen := length_flatMap_hexByte bytes
  exact ⟨by omega, hex2bin_flatMap (by omega) le_rfl⟩

theorem pointer_of_ne_nil {bytes : Bytes} (h : bytes ≠ []) : pointer bytes = some bytes := by
  cases bytes with
  | nil => exact absurd rfl h
  | cons => rfl

/-- The value of a parameter in a request. -/
def paramItem (param : Option Bytes) : Json :=
  match pointer (param.getD []) with
  | none => .null
  | some bytes => .string (bytes.flatMap hexByte)

theorem jsonRequest_eq (func : Bytes) {param : Option Bytes}
    (hlen : (param.getD []).length < 2 ^ 30) :
    jsonRequest c func param =
      some (some (c.printUnformatted (requestObject func (paramItem param)))) := by
  match param, hlen with
  | none, _ => rfl
  | some [], _ => rfl
  | some (b :: bytes), hlen =>
    have hhex := @hexString_eq (b :: bytes) hlen
    simp only [jsonRequest, hhex]
    rfl

/-- **The daemon reads the request that the driver sent.** -/
theorem parseRequest_requestObject {func : Bytes} {param : Option Bytes}
    (hlen : (param.getD []).length < 2 ^ 30)
    (hc : c.Transfers (requestObject func (paramItem param))) :
    protocolParseRequest c (c.printUnformatted (requestObject func (paramItem param))) =
      some (func, pointer (param.getD [])) := by
  rw [protocolParseRequest, hc.parse_print]
  match hp : param.getD [], hlen with
  | [], _ =>
    have hitem : paramItem param = .null := by rw [paramItem, hp]; rfl
    rw [hitem]
    rfl
  | b :: bytes, hlen =>
    have hitem : paramItem param = .string ((b :: bytes).flatMap hexByte) := by
      rw [paramItem, hp]
      rfl
    obtain ⟨hsize, hhex⟩ := hex2bin_hexText hlen
    have hpos : 0 < ((b :: bytes).flatMap hexByte).length / 2 % 2 ^ 32 := by
      rw [hsize, List.length_cons]
      omega
    have hparam : getObjectItem (.object [(ascii "func", .string func),
        (ascii "param", paramItem param)]) (ascii "param") = some (paramItem param) := rfl
    rw [hitem] at hparam ⊢
    rw [← hsize] at hhex
    generalize (b :: bytes).flatMap hexByte = hex at hpos hparam hhex ⊢
    simp only [Option.bind_eq_bind, Option.bind_some]
    change (if _ > 0 then _ else _) = _
    rw [if_pos hpos, hhex]
    rfl

/-- The digits of the data in a response. -/
def dataHex (data : Bytes) : Option Bytes := (pointer data).map (·.flatMap hexByte)

theorem generateResponse_eq (ecode : ℤ) {data : Option Bytes}
    (hlen : (data.getD []).length < 2 ^ 30) :
    protocolGenerateResponse c ecode data =
      some (some (c.printUnformatted (responseObject ecode (dataHex (data.getD []))))) := by
  match data, hlen with
  | none, _ => rfl
  | some [], _ => rfl
  | some (b :: bytes), hlen =>
    have hhex := @hexString_eq (b :: bytes) hlen
    simp only [protocolGenerateResponse, hhex]
    rfl

theorem valueint_of_int32 {n : ℤ} (hlow : -2 ^ 31 ≤ n) (hhigh : n < 2 ^ 31) : valueint n = n := by
  rw [valueint]
  omega

variable {ecode : ℤ} {data : Bytes} {r : LineReader} {rest : Bytes}

/-- **The driver reads the response that the daemon sent**, if its line fits. -/
theorem jsonResponse_fits (hlow : -2 ^ 31 ≤ ecode) (hhigh : ecode < 2 ^ 31)
    (hlen : data.length < 2 ^ 30)
    (hc : c.Transfers (responseObject ecode (dataHex data))) (hr : r.Ok readBufferSize)
    (hs : r.stream = c.printUnformatted (responseObject ecode (dataHex data)) ++ newline :: rest)
    (hfits : (c.printUnformatted (responseObject ecode (dataHex data))).length < readBufferSize) :
    ∃ r', jsonResponse c r = some (some (ecode, pointer data), r') ∧ r'.Ok readBufferSize ∧
      r'.stream = rest := by
  obtain ⟨r', hline, hr', hrest⟩ :=
    lineLoop_fits hr hc.newline_notMem hc.zero_notMem hfits hs
  refine ⟨r', ?_, hr', hrest⟩
  have hline : socketRecvLine r = some (some _, r') := hline
  have hcode := valueint_of_int32 hlow hhigh
  rw [jsonResponse, hline, Option.bind_eq_bind, Option.bind_some]
  dsimp only
  rw [Option.bind_eq_bind, Option.bind_some, hc.parse_print]
  match data, hlen with
  | [], _ =>
    change some (some (valueint ecode, none), r') = _
    rw [hcode]
    rfl
  | b :: bytes, hlen =>
    obtain ⟨hsize, hhex⟩ := hex2bin_hexText hlen
    rw [← hsize] at hhex
    have hdata : dataHex (b :: bytes) = some ((b :: bytes).flatMap hexByte) := rfl
    rw [hdata]
    generalize (b :: bytes).flatMap hexByte = hex at hhex ⊢
    change some (Option.map _ (hex2bin (hex.length / 2 % 2 ^ 32) hex), r') = _
    rw [hhex, Option.map_some, hcode]
    rfl

/-- **A response that does not fit is an error.** -/
theorem jsonResponse_long (hc : c.Transfers (responseObject ecode (dataHex data)))
    (hr : r.Ok readBufferSize)
    (hs : r.stream = c.printUnformatted (responseObject ecode (dataHex data)) ++ newline :: rest)
    (hlong : readBufferSize ≤ (c.printUnformatted (responseObject ecode (dataHex data))).length) :
    ∃ r', jsonResponse c r = some (none, r') := by
  obtain ⟨r', hline⟩ := lineLoop_long hr hc.newline_notMem hlong hs
  have hline : socketRecvLine r = some (none, r') := hline
  refine ⟨r', ?_⟩
  rw [jsonResponse, hline]
  rfl

/-- **The round trip of the protocol.** The daemon reads from the line of a request the function and
the bytes that the driver was given; the driver reads from the line of a response the code and the
bytes that the daemon was given if the line has at most 8191 characters, and fails otherwise. -/
theorem protocol_roundtrip {c : CJson} {func : Bytes} {param data : Option Bytes} {ecode : ℤ}
    (hparam : (param.getD []).length < 2 ^ 30)
    (hrequest : c.Transfers (requestObject func (paramItem param)))
    (hlow : -2 ^ 31 ≤ ecode) (hhigh : ecode < 2 ^ 31) (hdata : (data.getD []).length < 2 ^ 30)
    (hresponse : c.Transfers (responseObject ecode (dataHex (data.getD [])))) :
    (∃ line, jsonRequest c func param = some (some line) ∧
      protocolParseRequest c line = some (func, pointer (param.getD []))) ∧
    ∃ line, protocolGenerateResponse c ecode data = some (some line) ∧
      ∀ (r : LineReader) (rest : Bytes), r.Ok readBufferSize → r.stream = line ++ newline :: rest →
        (line.length ≤ 8191 → ∃ r', jsonResponse c r =
          some (some (ecode, pointer (data.getD [])), r') ∧ r'.Ok readBufferSize ∧
            r'.stream = rest) ∧
        (8191 < line.length → ∃ r', jsonResponse c r = some (none, r')) := by
  refine ⟨⟨_, jsonRequest_eq func hparam, parseRequest_requestObject hparam hrequest⟩,
    _, generateResponse_eq ecode hdata, fun r rest hr hs => ⟨fun hfits => ?_, fun hlong => ?_⟩⟩
  · exact jsonResponse_fits hlow hhigh hdata hresponse hr hs (Nat.lt_succ_of_le hfits)
  · exact jsonResponse_long hresponse hr hs hlong

/-! ## Two exchanges -/

/-- A library as it behaves on the two objects of an exchange, with the texts it prints for them. -/
def exchange (request response : Json) (requestText responseText : Bytes) : CJson where
  printUnformatted value :=
    match value with
    | .object [_, (_, .object ((name, _) :: _))] =>
      if name = ascii "func" then requestText else responseText
    | _ => []
  parse text :=
    if text = requestText then some request
    else if text = responseText then some response
    else none

/-- The text of a request to transmit the two bytes `80 e2`. -/
def transmitText : Bytes :=
  ascii "\x7b\"type\":\"apdu\",\"payload\":\x7b\"func\":\"transmit\",\"param\":\"80e2\"\x7d\x7d"

/-- The text of a response with the code 0. -/
def dataText (hex : Bytes) : Bytes :=
  ascii "\x7b\"type\":\"apdu\",\"payload\":\x7b\"ecode\":0,\"data\":\"" ++ hex ++
    ascii "\"\x7d\x7d"

theorem protocol_roundtrip_sample :
    let c := exchange (requestObject (ascii "transmit") (paramItem (some [0x80, 0xE2])))
      (responseObject 0 (dataHex [0x90, 0x00])) transmitText (dataText (ascii "9000"))
    (∃ line, jsonRequest c (ascii "transmit") (some [0x80, 0xE2]) = some (some line) ∧
      protocolParseRequest c line = some (ascii "transmit", some [0x80, 0xE2])) ∧
    ∃ line, protocolGenerateResponse c 0 (some [0x90, 0x00]) = some (some line) ∧
      ∀ (r : LineReader) (rest : Bytes), r.Ok readBufferSize → r.stream = line ++ newline :: rest →
        (line.length ≤ 8191 → ∃ r', jsonResponse c r = some (some (0, some [0x90, 0x00]), r') ∧
          r'.Ok readBufferSize ∧ r'.stream = rest) ∧
        (8191 < line.length → ∃ r', jsonResponse c r = some (none, r')) := by
  intro c
  have hrequest : c.Transfers (requestObject (ascii "transmit") (paramItem (some [0x80, 0xE2]))) :=
    ⟨rfl, by decide, by decide⟩
  have hresponse : c.Transfers (responseObject 0 (dataHex [0x90, 0x00])) :=
    ⟨rfl, by decide, by decide⟩
  exact protocol_roundtrip (by decide) hrequest (by decide) (by decide) (by decide) hresponse

theorem notMem_flatMap_hexByte {b : UInt8} (hb : b < 48) (bytes : Bytes) :
    b ∉ bytes.flatMap hexByte := by
  have hdigit : ∀ n < 16, ¬ hexDigit n < 48 := by decide
  intro h
  obtain ⟨a, -, ha⟩ := List.mem_flatMap.1 h
  have hlt := a.toNat_lt
  simp only [hexByte, List.mem_cons, List.not_mem_nil, or_false] at ha
  rcases ha with rfl | rfl
  · exact hdigit _ (by omega) hb
  · exact hdigit _ (by omega) hb

theorem notMem_dataText {b : UInt8} {hex : Bytes} (hb : b < 32) (hhex : b ∉ hex) :
    b ∉ dataText hex := by
  have hfirst : ∀ x ∈ ascii "\x7b\"type\":\"apdu\",\"payload\":\x7b\"ecode\":0,\"data\":\"",
      ¬ x < 32 := by
    decide +kernel
  have hlast : ∀ x ∈ ascii "\"\x7d\x7d", ¬ x < 32 := by decide +kernel
  rw [dataText, List.mem_append, List.mem_append]
  rintro ((h | h) | h)
  · exact hfirst b h hb
  · exact hhex h
  · exact hlast b h hb

theorem exchange_transfers {hex : Bytes} (hnl : newline ∉ hex) (h0 : 0 ∉ hex) :
    (exchange .null (responseObject 0 (some hex)) [] (dataText hex)).Transfers
      (responseObject 0 (some hex)) := by
  have hne : dataText hex ≠ [] := List.append_ne_nil_of_right_ne_nil _ (by decide)
  refine ⟨?_, notMem_dataText (by decide) hnl, notMem_dataText (by decide) h0⟩
  change (if dataText hex = [] then some .null else
    if dataText hex = dataText hex then some (responseObject 0 (some hex)) else none) = _
  rw [if_neg hne, if_pos rfl]

/-- The library prints a response with data without blanks, and reads it back. -/
structure CJson.Compact (c : CJson) : Prop where
  print : ∀ bytes : Bytes, c.printUnformatted (responseObject 0 (some (bytes.flatMap hexByte))) =
    dataText (bytes.flatMap hexByte)
  parse_print : ∀ bytes : Bytes, c.parse (dataText (bytes.flatMap hexByte)) =
    some (responseObject 0 (some (bytes.flatMap hexByte)))

theorem CJson.Compact.transfers (hc : c.Compact) (hdata : data ≠ []) :
    c.Transfers (responseObject 0 (dataHex data)) := by
  have hhex : dataHex data = some (data.flatMap hexByte) := by
    rw [dataHex, pointer_of_ne_nil hdata]
    rfl
  rw [hhex]
  refine ⟨?_, ?_, ?_⟩ <;> rw [hc.print]
  · exact hc.parse_print data
  · exact notMem_dataText (by decide) (notMem_flatMap_hexByte (by decide) data)
  · exact notMem_dataText (by decide) (notMem_flatMap_hexByte (by decide) data)

/-- The length of the line of a response. -/
theorem CJson.Compact.length_line (hc : c.Compact) (hdata : data ≠ []) :
    (c.printUnformatted (responseObject 0 (dataHex data))).length = 47 + 2 * data.length := by
  have hhex : dataHex data = some (data.flatMap hexByte) := by
    rw [dataHex, pointer_of_ne_nil hdata]
    rfl
  have hfirst :
      (ascii "\x7b\"type\":\"apdu\",\"payload\":\x7b\"ecode\":0,\"data\":\"").length = 44 := by
    decide +kernel
  have hlast : (ascii "\"\x7d\x7d").length = 3 := by decide
  rw [hhex, hc.print, dataText, List.length_append, List.length_append, hfirst, hlast,
    length_flatMap_hexByte]
  omega

/-- A library as it behaves on responses with data. -/
def responses : CJson where
  printUnformatted value :=
    match value with
    | .object [_, (_, .object [_, (_, .string hex)])] => dataText hex
    | _ => []
  parse text :=
    let hex := (text.drop 44).take (text.length - 47)
    if text = dataText hex then some (responseObject 0 (some hex)) else none

theorem responses_compact : responses.Compact := by
  refine ⟨fun bytes => rfl, fun bytes => ?_⟩
  generalize bytes.flatMap hexByte = hex
  have hlast : (ascii "\"\x7d\x7d").length = 3 := by decide
  have hdrop : (dataText hex).drop 44 = hex ++ ascii "\"\x7d\x7d" := by
    rw [dataText, List.append_assoc]
    exact List.drop_left' (by decide +kernel)
  have hlen : (dataText hex).length - 47 = hex.length := by
    have := congrArg List.length hdrop
    rw [List.length_drop, List.length_append, hlast] at this
    omega
  have hhex : ((dataText hex).drop 44).take ((dataText hex).length - 47) = hex := by
    rw [hdrop, hlen, List.take_left]
  change (if dataText hex = dataText (((dataText hex).drop 44).take ((dataText hex).length - 47))
    then some (responseObject 0 (some (((dataText hex).drop 44).take ((dataText hex).length - 47))))
    else none) = _
  rw [hhex, if_pos rfl]

/-- **A response of 5000 bytes is not read**: its line does not fit into the driver's buffer. -/
theorem response_not_read : ¬ ∀ (c : CJson) (ecode : ℤ) (data line : Bytes) (r : LineReader),
    -2 ^ 31 ≤ ecode → ecode < 2 ^ 31 → data ≠ [] →
    c.Transfers (responseObject ecode (dataHex data)) →
    protocolGenerateResponse c ecode (some data) = some (some line) →
    r.Ok readBufferSize → r.stream = line ++ [newline] →
    ∃ r', jsonResponse c r = some (some (ecode, some data), r') := by
  intro h
  obtain ⟨data, hlen⟩ : ∃ data : Bytes, data.length = 5000 :=
    ⟨List.replicate 5000 0, List.length_replicate⟩
  have hne : data ≠ [] := List.ne_nil_of_length_pos (by omega)
  have hhex : dataHex data = some (data.flatMap hexByte) := by
    rw [dataHex, pointer_of_ne_nil hne]
    rfl
  have htransfers := exchange_transfers (notMem_flatMap_hexByte (by decide) data)
    (notMem_flatMap_hexByte (by decide) data)
  rw [← hhex] at htransfers
  have hr : LineReader.Ok readBufferSize
      ⟨[], [dataText (data.flatMap hexByte) ++ [newline]]⟩ := by
    refine ⟨Nat.zero_le _, ?_⟩
    simp
  have hlong : readBufferSize ≤ (dataText (data.flatMap hexByte)).length := by
    have hhexlen := length_flatMap_hexByte data
    rw [dataText, List.length_append, List.length_append, readBufferSize]
    omega
  have hgen := @generateResponse_eq (exchange .null (responseObject 0 (dataHex data)) []
    (dataText (data.flatMap hexByte))) 0 (some data) (lt_of_eq_of_lt hlen (by decide))
  obtain ⟨r', hread⟩ := h _ 0 data _ _ (by decide) (by decide) hne htransfers hgen hr
    (by simp [LineReader.stream]; rfl)
  obtain ⟨r'', hfail⟩ := jsonResponse_long htransfers hr (by simp [LineReader.stream]; rfl) hlong
  rw [hread] at hfail
  cases hfail

end VirtualRsp.Protocol
