import Vortice.Http.Client
import Vortice.Ws.Digest
import Vortice.Ws.Headers

/-!
# The answer to a request

What a server answers to the key of a request, and how a client reads the answer.  However
the two heads are cut on the way, they are read as they were written, and nothing that comes
behind them is lost.
-/

namespace Vortice.Ws.Handshake

open Vortice.Foundation
open Vortice.Http
open Vortice.Proto.Management (isWhitespace trim)

/-- What is appended to the key of a client before it is hashed. -/
def guid : String := "258EAFA5-E914-47DA-95CA-C5AB0DC85B11"

/-- The value of `Sec-WebSocket-Accept` that answers a `Sec-WebSocket-Key`. -/
def acceptKey (clientKey : String) : String :=
  Proto.Base64.encode (Digest.sha1 (octets (clientKey ++ guid)))

def response (key : String) : String :=
  "HTTP/1.1 101 Switching Protocols" ++ "\r\n" ++
  "Upgrade: websocket" ++ "\r\n" ++
  "Connection: Upgrade" ++ "\r\n" ++
  "Sec-WebSocket-Accept: " ++ acceptKey key ++ "\r\n" ++
  "\r\n"

/-- Why there is no WebSocket: the exchange failed, or the server answered with a status. -/
inductive Refusal where
  | failed (error : Error)
  | notUpgraded (status : Option UInt16)
  deriving DecidableEq

/-- Whether a header is the answer that is expected. -/
def isAnswer (expected : String) (header : String × String) : Bool :=
  eqIgnoreAsciiCase (trim header.1) "sec-websocket-accept" && trim header.2 == expected

def parseResponse (head sentKey : String) : Except Refusal Unit :=
  let statusLine := (lines head).head?.getD ""
  let status := Client.status statusLine
  if status ≠ some 101 then .error (.notUpgraded status)
  else if ((lines head).tail.filterMap fun line => splitOnce line ':').any
      (isAnswer (acceptKey sentKey)) then .ok ()
  else .error (.failed (.handshake
    "the server's Sec-WebSocket-Accept does not answer our key"))

/-- What a server writes for a request, and what it has read past it. -/
def accept (seed : Octets) (transport : Transport) : Except Error (String × Left) :=
  match readHead seed transport with
  | .error error => .error error
  | .ok (head, left) =>
      match parseRequest head with
      | .error error => .error error
      | .ok request => .ok (response request.key, left)

/-- What a client has read past the answer to the key it sent. -/
def connectOver (key : String) (transport : Transport) : Except Refusal Left :=
  match readHead [] transport with
  | .error error => .error (.failed error)
  | .ok (head, left) =>
      match parseResponse head key with
      | .error refusal => .error refusal
      | .ok () => .ok left

/-! ## A text is its lines -/

theorem intercalate_splitCrlf (source : List Char) :
    ['\r', '\n'].intercalate (splitCrlf source) = source := by
  fun_induction splitCrlf source with
  | case1 => rfl
  | case2 rest ih =>
      rw [List.intercalate_cons_of_ne_nil (splitCrlf_ne_nil rest), ih]
      rfl
  | case3 ch rest _ hnone => exact absurd hnone (splitCrlf_ne_nil rest)
  | case4 ch rest hother line later hlines ih =>
      rw [hlines] at ih
      cases later with
      | nil =>
          rw [List.intercalate_singleton] at ih ⊢
          rw [ih]
      | cons next later =>
          rw [List.intercalate_cons_cons] at ih ⊢
          rw [List.cons_append, List.cons_append, ih]

theorem eq_of_lines {first second : String} (h : lines first = lines second) : first = second := by
  have hpieces : splitCrlf first.toList = splitCrlf second.toList :=
    List.map_injective_iff.mpr (fun _ _ => String.ofList_injective) h
  have hjoined := congrArg (['\r', '\n'].intercalate ·) hpieces
  simp only [intercalate_splitCrlf] at hjoined
  exact String.toList_inj.mp hjoined

theorem deliver_of_lines {before first : String} {rest : List String}
    (hlines : lines (before ++ "\r\n\r\n" ++ "") = first :: rest)
    (hrest : rest.takeWhile (· ≠ "") ++ ["", ""] = rest) :
    deliver (before ++ "\r\n\r\n" ++ "") = some (before ++ "\r\n\r\n" ++ "") := by
  obtain ⟨head, hdeliver, hhead⟩ := exists_lines_deliver hlines
  rw [hrest, ← hlines] at hhead
  rw [hdeliver, eq_of_lines hhead]

theorem findBlankLine_of_deliver {source : String} (h : deliver source = some source) :
    findBlankLine (octets source) = some (octets source).length := by
  rw [deliver, Option.bind_eq_some_iff] at h
  obtain ⟨place, hplace, htext⟩ := h
  have htake : octets source = (octets source).take place := octets_of_text htext
  have hle : place ≤ (octets source).length := blankLineMark.seek_le hplace
  have hlength := congrArg List.length htake
  rw [List.length_take_of_le hle] at hlength
  rw [hplace, hlength]

/-- Such a head is read as it was written, and all that comes behind it is left. -/
theorem readHead_whole {source : String} {later : Octets} (h : deliver source = some source)
    (hle : (octets source).length ≤ maxHead) (ending : Ending)
    (arrival : Arrival chunkSize maxHead (octets source ++ later)) :
    ∃ left, readHead arrival.seed ⟨arrival.pieces, ending⟩ = .ok (source, left) ∧
      left.whole = later := by
  have hcome : Reader.come (readHead arrival.seed ⟨arrival.pieces, ending⟩) = _ :=
    readHead_of_deliver (findBlankLine_of_deliver h) hle h arrival
  rw [List.drop_left] at hcome
  cases hread : readHead arrival.seed ⟨arrival.pieces, ending⟩ with
  | error error =>
      rw [hread] at hcome
      cases hcome
  | ok result =>
      rw [hread] at hcome
      cases hcome
      exact ⟨result.2, rfl, rfl⟩

/-! ## The request -/

theorem deliver_request {path host : String}
    (h : ∀ line ∈ (lines (opening path host)).tail, Harmless line) (nonce : Octets) :
    deliver (request path host (clientKey nonce)) =
      some (request path host (clientKey nonce)) := by
  obtain ⟨line, rest, hopening⟩ := exists_lines_opening path host
  have hrequest : lines (request path host (clientKey nonce)) = _ :=
    lines_request (return_notMem_clientKey nonce)
  obtain ⟨before, hbefore⟩ := request_eq_append path host (clientKey nonce)
  rw [hopening, List.cons_append, hbefore] at hrequest
  rw [hopening, List.tail_cons] at h
  rw [hbefore]
  exact deliver_of_lines hrequest (read_of_harmless h (clientKey nonce))

theorem parseRequest_request {path host : String}
    (h : ∀ line ∈ (lines (opening path host)).tail, Harmless line) (nonce : Octets) :
    parseRequest (request path host (clientKey nonce)) = .ok ⟨clientKey nonce⟩ := by
  obtain ⟨head, line, hdeliver, hlines⟩ := exists_delivered path host nonce
  rw [deliver_request h nonce, Option.some.injEq] at hdeliver
  rw [hdeliver]
  exact parseRequest_of_harmless h hlines

/-! ## The answer -/

theorem lines_response (key : String) :
    lines (response key) = ["HTTP/1.1 101 Switching Protocols", "Upgrade: websocket",
      "Connection: Upgrade", "Sec-WebSocket-Accept: " ++ acceptKey key, "", ""] := by
  have hline : lines ("Sec-WebSocket-Accept: " ++ acceptKey key) =
      ["Sec-WebSocket-Accept: " ++ acceptKey key] := by
    refine lines_of_notMem ?_
    rw [String.toList_append, List.mem_append]
    exact fun hmem => hmem.elim (by decide) (return_notMem_clientKey _)
  have hcut : response key = "HTTP/1.1 101 Switching Protocols" ++ "\r\n" ++
      ("Upgrade: websocket" ++ "\r\n" ++ ("Connection: Upgrade" ++ "\r\n" ++
        ("Sec-WebSocket-Accept: " ++ acceptKey key ++ "\r\n" ++ "\r\n"))) := by
    unfold response
    rw [← String.toList_inj]
    simp only [String.toList_append, List.append_assoc]
  have hstatus : lines "HTTP/1.1 101 Switching Protocols" =
      ["HTTP/1.1 101 Switching Protocols"] := lines_of_notMem (by decide)
  have hupgrade : lines "Upgrade: websocket" = ["Upgrade: websocket"] :=
    lines_of_notMem (by decide)
  have hconnection : lines "Connection: Upgrade" = ["Connection: Upgrade"] :=
    lines_of_notMem (by decide)
  have hend : lines "\r\n" = ["", ""] := rfl
  rw [hcut, lines_append, lines_append, lines_append, lines_append, hline, hstatus, hupgrade,
    hconnection, hend]
  rfl

theorem deliver_response (key : String) : deliver (response key) = some (response key) := by
  have hbefore : response key = ("HTTP/1.1 101 Switching Protocols" ++ "\r\n" ++
      "Upgrade: websocket" ++ "\r\n" ++ "Connection: Upgrade" ++ "\r\n" ++
      "Sec-WebSocket-Accept: " ++ acceptKey key) ++ "\r\n\r\n" ++ "" := by
    unfold response
    rw [← String.toList_inj]
    simp only [String.toList_append, List.append_assoc]
    rfl
  have hlines := lines_response key
  have haccept : "Sec-WebSocket-Accept: " ++ acceptKey key ≠ "" := by
    rw [ne_eq, ← String.toList_inj, String.toList_append]
    exact List.append_ne_nil_of_left_ne_nil (by decide) _
  rw [hbefore] at hlines ⊢
  refine deliver_of_lines hlines ?_
  simp [haccept]

theorem length_encodeOctets_le (data : Octets) :
    (Proto.Base64.encodeOctets data).length ≤ 4 * data.length := by
  induction data using Proto.Base64.encodeOctets.induct with
  | case1 first second third rest ih =>
      rw [Proto.Base64.encodeOctets, List.length_append]
      simp only [List.length_cons, Proto.Base64.encodeChunk, List.length_nil]
      omega
  | case2 chunk hshort =>
      rw [Proto.Base64.encodeOctets]
      · obtain _ | ⟨first, _ | ⟨second, _ | ⟨third, rest⟩⟩⟩ := chunk
        · exact Nat.zero_le _
        · exact Nat.le_refl 4
        · exact (by decide : 4 ≤ 8)
        · exact absurd rfl (hshort first second third rest)
      · exact hshort

theorem length_sha1 (message : Octets) : (Digest.sha1 message).length = 20 := by
  have hwords (words : List UInt32) :
      (words.flatMap fun word => bigEndian 4 word.toNat).length = 4 * words.length := by
    induction words with
    | nil => rfl
    | cons word words ih =>
        rw [List.flatMap_cons, List.length_append, length_bigEndian, ih, List.length_cons]
        omega
  unfold Digest.sha1
  exact hwords _

theorem length_acceptKey_le (key : String) : (octets (acceptKey key)).length ≤ 80 := by
  have hencode := length_encodeOctets_le (Digest.sha1 (octets (key ++ guid)))
  rw [length_sha1] at hencode
  rwa [acceptKey, Proto.Base64.octets_encode]

theorem length_response (value : String) :
    (octets ("HTTP/1.1 101 Switching Protocols" ++ "\r\n" ++ "Upgrade: websocket" ++ "\r\n" ++
      "Connection: Upgrade" ++ "\r\n" ++ "Sec-WebSocket-Accept: " ++ value ++ "\r\n" ++
      "\r\n")).length = (octets value).length + 101 := by
  have hstatus : (octets "HTTP/1.1 101 Switching Protocols").length = 32 := rfl
  have hupgrade : (octets "Upgrade: websocket").length = 18 := rfl
  have hconnection : (octets "Connection: Upgrade").length = 19 := rfl
  have haccept : (octets "Sec-WebSocket-Accept: ").length = 22 := rfl
  have hend : (octets "\r\n").length = 2 := rfl
  simp only [octets_append, List.length_append, hstatus, hupgrade, hconnection, haccept, hend]
  omega

theorem length_response_le (key : String) : (octets (response key)).length ≤ maxHead := by
  have hlength : (octets (response key)).length = _ := length_response (acceptKey key)
  have hkey := length_acceptKey_le key
  have hlimit : 80 + 101 ≤ maxHead := by decide
  exact hlength ▸ (Nat.add_le_add_right hkey 101).trans hlimit

theorem parseResponse_response (key sent : String) :
    parseResponse (response key) sent =
      if acceptKey key = acceptKey sent then .ok ()
      else .error (.failed (.handshake
        "the server's Sec-WebSocket-Accept does not answer our key")) := by
  have hstatus : Client.status "HTTP/1.1 101 Switching Protocols" = some 101 := by decide
  have hcut : splitOnce ("Sec-WebSocket-Accept: " ++ acceptKey key) ':' =
      some ("Sec-WebSocket-Accept", " " ++ acceptKey key) := splitOnce_of_eq (by simp) (by decide)
  have hname : eqIgnoreAsciiCase (trim "Sec-WebSocket-Accept") "sec-websocket-accept" := by decide
  have hvalue : trim (" " ++ acceptKey key) = acceptKey key := by
    rw [trim_space]
    exact Proto.Management.trim_of_forall isWhitespace_of_mem_clientKey
  have hupgrade : splitOnce "Upgrade: websocket" ':' = some ("Upgrade", " websocket") := by decide
  have hconnection : splitOnce "Connection: Upgrade" ':' = some ("Connection", " Upgrade") := by
    decide
  have hother : isAnswer (acceptKey sent) ("Upgrade", " websocket") = false := by
    rw [isAnswer, Bool.and_eq_false_iff]
    exact .inl (by decide)
  have hother' : isAnswer (acceptKey sent) ("Connection", " Upgrade") = false := by
    rw [isAnswer, Bool.and_eq_false_iff]
    exact .inl (by decide)
  have hempty : splitOnce "" ':' = none := by decide
  have hanswer : isAnswer (acceptKey sent) ("Sec-WebSocket-Accept", " " ++ acceptKey key) =
      (acceptKey key == acceptKey sent) := by
    rw [isAnswer, hname, Bool.true_and, hvalue]
  rw [parseResponse, lines_response]
  simp only [List.head?_cons, Option.getD_some, hstatus, ne_eq, not_true, if_false, List.tail_cons,
    List.filterMap_cons, List.filterMap_nil, hupgrade, hconnection, hcut, hempty, List.any_cons,
    List.any_nil, hother, hother', hanswer, Bool.false_or, Bool.or_false, beq_iff_eq]

/-- A client takes the answer to another key for its own only if the two have one digest. -/
theorem answers_one_digest (key sent : String) :
    parseResponse (response key) sent = .ok () ↔
      Digest.sha1 (octets (key ++ guid)) = Digest.sha1 (octets (sent ++ guid)) := by
  have hdigest : acceptKey key = acceptKey sent ↔
      Digest.sha1 (octets (key ++ guid)) = Digest.sha1 (octets (sent ++ guid)) := by
    constructor
    · intro hkeys
      have hdecode := congrArg Proto.Base64.decode hkeys
      rw [acceptKey, acceptKey, Proto.Base64.decode_encode, Proto.Base64.decode_encode] at hdecode
      exact Option.some.inj hdecode
    · intro hsame
      rw [acceptKey, acceptKey, hsame]
  rw [parseResponse_response, ← hdigest]
  split
  · rename_i hsame
    simp [hsame]
  · rename_i hother
    simp [hother]

/-- Client and server agree: a request that carries its key is answered, the answer is accepted,
and whatever either of them sends behind its head is left for what reads next, however the
octets are cut on the way. -/
theorem handshake_completes {path host : String}
    (hharmless : ∀ line ∈ (lines (opening path host)).tail, Harmless line) {nonce : Octets}
    (hfits : (octets (request path host (clientKey nonce))).length ≤ maxHead)
    {asked answered : Octets} (ending ending' : Ending)
    (arrival : Arrival chunkSize maxHead (octets (request path host (clientKey nonce)) ++ asked))
    {pieces : List (Piece UInt8 chunkSize)}
    (harrives : unread pieces = octets (response (clientKey nonce)) ++ answered) :
    (∃ left, accept arrival.seed ⟨arrival.pieces, ending⟩ =
        .ok (response (clientKey nonce), left) ∧ left.whole = asked) ∧
      ∃ left, connectOver (clientKey nonce) ⟨pieces, ending'⟩ = .ok left ∧
        left.whole = answered := by
  constructor
  · obtain ⟨left, hread, hleft⟩ := readHead_whole (deliver_request hharmless nonce) hfits ending
      arrival
    refine ⟨left, ?_, hleft⟩
    simp only [accept, hread, parseRequest_request hharmless]
  · obtain ⟨left, hread, hleft⟩ := readHead_whole (deliver_response (clientKey nonce))
      (length_response_le _) ending' ⟨[], pieces, harrives, Nat.zero_le _⟩
    refine ⟨left, ?_, hleft⟩
    simp only [connectOver, hread, parseResponse_response, if_true]

/-- The octets come one at a time, and a frame begins behind each head. -/
theorem handshake_completes_sample :
    (∃ left, accept [] ⟨singles chunkSize_pos
        (octets (request "/" "example.com" (clientKey (List.replicate 16 0))) ++ [130]), .closed⟩ =
          .ok (response (clientKey (List.replicate 16 0)), left) ∧ left.whole = [130]) ∧
      ∃ left, connectOver (clientKey (List.replicate 16 0)) ⟨singles chunkSize_pos
        (octets (response (clientKey (List.replicate 16 0))) ++ [129]), .closed⟩ = .ok left ∧
          left.whole = [129] := by
  have hlines : (lines (opening "/" "example.com")).tail = ["Host: example.com"] := by decide
  have hharmless : ∀ line ∈ (lines (opening "/" "example.com")).tail, Harmless line := by
    intro line hmem
    rw [hlines, List.mem_singleton] at hmem
    subst hmem
    exact ⟨by decide, by decide⟩
  exact handshake_completes hharmless (by decide +kernel) .closed .closed
    ⟨[], _, unread_singles chunkSize_pos _, Nat.zero_le _⟩ (unread_singles chunkSize_pos _)

end Vortice.Ws.Handshake
