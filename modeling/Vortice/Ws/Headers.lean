import Vortice.Proto.Canonical
import Vortice.Ws.Handshake

/-!
# The headers of a request

A request is put together from a path, a host and a key, and read by its lines.  It is
read with that key exactly if the lines that path and host bring with them are neither
empty nor `Sec-WebSocket-Key` headers of their own.
-/

namespace Vortice.Ws.Handshake

open Vortice.Foundation
open Vortice.Http
open Vortice.Proto.Management (isWhitespace trim)

/-! ## The head that is delivered -/

/-- A text up to its first blank line, which is what `readHead` delivers of it. -/
def deliver (source : String) : Option String :=
  (findBlankLine (octets source)).bind fun place => text ((octets source).take place)

theorem readHead_of_deliver {source head : String} {later : Octets} {ending : Ending} {place : Nat}
    (hplace : findBlankLine (octets source) = some place) (hle : place ≤ maxHead)
    (hhead : deliver source = some head)
    (arrival : Arrival chunkSize maxHead (octets source ++ later)) :
    Reader.come (readHead arrival.seed ⟨arrival.pieces, ending⟩) =
      .ok (head, (octets source ++ later).drop place) := by
  have hlength : place ≤ (octets source).length := blankLineMark.seek_le hplace
  have hseek : findBlankLine (octets source ++ later) = some place := by
    have htake := findBlankLine_take (octets source ++ later) (octets source).length
    rw [List.take_left, hplace, eq_comm, Option.filter_eq_some_iff] at htake
    exact htake.1
  have hwhole : (intake blankLineMark maxHead arrival.seed arrival.pieces).whole = _ :=
    whole_intake_of_le hseek (Nat.le_succ_of_le hle) arrival.whole
  rw [deliver, hplace, Option.bind_some] at hhead
  have hcheck : headReader.check ((octets source ++ later).take place) = .ok head := by
    rw [List.take_append_of_le_length hlength]
    change headText _ = _
    rw [headText, hhead]
  rw [readHead, Reader.come_read]
  change headReader.outcome ending (intake blankLineMark maxHead arrival.seed arrival.pieces).whole
    = _
  rw [hwhole, Reader.outcome, hcheck]
  rfl

theorem exists_deliver (before after : String) :
    ∃ front later, before ++ "\r\n\r\n" ++ after = front ++ "\r\n\r\n" ++ later ∧
      deliver (before ++ "\r\n\r\n" ++ after) = some (front ++ "\r\n\r\n") ∧
      "" ∉ (lines front).tail := by
  obtain ⟨place, hplace⟩ : ∃ place,
      findBlankLine (octets (before ++ "\r\n\r\n" ++ after)) = some place := by
    refine exists_findBlankLine (i := (octets before).length) ?_
    rw [String.append_assoc, octets_append, octets_append, List.drop_left]
    exact List.prefix_append _ _
  obtain ⟨i, rfl, hstarts, hfirst⟩ := findBlankLine_eq_some.mp hplace
  obtain ⟨front, later, hsource, hfront⟩ := exists_append_of_octets (by decide) (by decide) hstarts
  rw [← String.append_assoc] at hsource
  refine ⟨front, later, hsource, ?_, fun hblank => ?_⟩
  · have hlength : (octets (front ++ "\r\n\r\n")).length = i + 4 := by
      rw [octets_append, List.length_append, hfront]
      rfl
    rw [deliver, hplace, Option.bind_some, hsource, octets_append, ← hlength, List.take_left,
      text_octets]
  · -- an empty line of the front would be an earlier blank line
    obtain ⟨line, hline, hempty⟩ : ∃ line ∈ (splitCrlf front.toList).tail,
        String.ofList line = "" := by
      rwa [lines, ← List.map_tail, List.mem_map] at hblank
    rw [String.ofList_eq_empty_iff] at hempty
    obtain ⟨start, rest, hstart⟩ := exists_append_of_blank (hempty ▸ hline)
    have hends : front ++ "\r\n" = String.ofList start ++ "\r\n\r\n" ++ String.ofList rest := by
      rw [← String.toList_inj]
      simpa using hstart
    have hlength := congrArg (fun value => (octets value).length) hends
    simp only [octets_append, List.length_append, hfront] at hlength
    have hcrlf : (octets "\r\n").length = 2 := rfl
    have hblank : (octets "\r\n\r\n").length = 4 := rfl
    refine hfirst (octets (String.ofList start)).length (by omega) ?_
    have hwhole : front ++ "\r\n\r\n" ++ later =
        String.ofList start ++ ("\r\n\r\n" ++ (String.ofList rest ++ ("\r\n" ++ later))) := by
      have hcut : front ++ "\r\n\r\n" ++ later = front ++ "\r\n" ++ ("\r\n" ++ later) := by
        rw [← String.toList_inj]
        simp
      rw [hcut, hends, String.append_assoc, String.append_assoc]
    rw [hsource, hwhole, octets_append, List.drop_left, octets_append]
    exact List.prefix_append _ _

theorem exists_lines_deliver {before after first : String} {rest : List String}
    (h : lines (before ++ "\r\n\r\n" ++ after) = first :: rest) :
    ∃ head, deliver (before ++ "\r\n\r\n" ++ after) = some head ∧
      lines head = first :: (rest.takeWhile (· ≠ "") ++ ["", ""]) := by
  obtain ⟨front, later, hsource, hdeliver, hnone⟩ := exists_deliver before after
  have hblank (behind : String) :
      lines (front ++ "\r\n\r\n" ++ behind) = lines front ++ "" :: lines behind := by
    have hcut : front ++ "\r\n\r\n" ++ behind = front ++ "\r\n" ++ ("" ++ "\r\n" ++ behind) := by
      rw [← String.toList_inj]
      simp
    rw [hcut, lines_append, lines_append]
    rfl
  obtain ⟨line, more, hfront⟩ := exists_lines front
  rw [hfront, List.tail_cons] at hnone
  rw [hsource, hblank, hfront, List.cons_append, List.cons.injEq] at h
  obtain ⟨rfl, rfl⟩ := h
  refine ⟨front ++ "\r\n\r\n", hdeliver, ?_⟩
  have hhead := hblank ""
  rw [String.append_empty, hfront] at hhead
  have hmore : ∀ line ∈ more, decide (line ≠ "") = true := fun line hmem =>
    decide_eq_true fun hempty => hnone (hempty ▸ hmem)
  rw [hhead, List.takeWhile_append_of_pos hmore, List.takeWhile_cons_of_neg (by simp),
    List.append_nil]
  rfl

/-! ## The lines of a request -/

/-- What the path and the host stand in. -/
def opening (path host : String) : String :=
  "GET " ++ path ++ " HTTP/1.1" ++ "\r\n" ++ "Host: " ++ host

/-- The headers behind the host. -/
def ownHeaders (key : String) : List String :=
  ["Upgrade: websocket", "Connection: Upgrade", "Sec-WebSocket-Key: " ++ key,
    "Sec-WebSocket-Version: 13"]

theorem request_eq (path host key : String) :
    request path host key = opening path host ++ "\r\n" ++ ("Upgrade: websocket" ++ "\r\n" ++
      ("Connection: Upgrade" ++ "\r\n" ++ ("Sec-WebSocket-Key: " ++ key ++ "\r\n" ++
        ("Sec-WebSocket-Version: 13" ++ "\r\n" ++ "\r\n")))) := by
  unfold request opening
  rw [← String.toList_inj]
  simp only [String.toList_append, List.append_assoc]

theorem lines_request {path host key : String} (hkey : '\r' ∉ key.toList) :
    lines (request path host key) = lines (opening path host) ++ (ownHeaders key ++ ["", ""]) := by
  have hline : lines ("Sec-WebSocket-Key: " ++ key) = ["Sec-WebSocket-Key: " ++ key] := by
    refine lines_of_notMem ?_
    rw [String.toList_append, List.mem_append]
    exact fun hmem => hmem.elim (by decide) hkey
  have hupgrade : lines "Upgrade: websocket" = ["Upgrade: websocket"] :=
    lines_of_notMem (by decide)
  have hconnection : lines "Connection: Upgrade" = ["Connection: Upgrade"] :=
    lines_of_notMem (by decide)
  have hversion : lines "Sec-WebSocket-Version: 13" = ["Sec-WebSocket-Version: 13"] :=
    lines_of_notMem (by decide)
  have hend : lines "\r\n" = ["", ""] := rfl
  rw [request_eq, lines_append, lines_append, lines_append, lines_append, lines_append,
    hline, hupgrade, hconnection, hversion, hend]
  rfl

theorem exists_lines_opening (path host : String) :
    ∃ line rest, lines (opening path host) =
      String.ofList ("GET".toList ++ ' ' :: line) :: rest := by
  have hlist : (opening path host).toList =
      "GET ".toList ++ (path ++ " HTTP/1.1" ++ "\r\n" ++ "Host: " ++ host).toList := by
    simp [opening]
  have hget : '\r' ∉ "GET ".toList := by decide
  obtain ⟨line, later, -, hlines⟩ := exists_splitCrlf_append hget
    (path ++ " HTTP/1.1" ++ "\r\n" ++ "Host: " ++ host).toList
  refine ⟨line, later.map String.ofList, ?_⟩
  rw [lines, hlist, hlines]
  rfl

/-! ## How a request is read -/

theorem headersOf_append (first second : List String) :
    headersOf (first ++ second) = headersOf first ++ headersOf second := by
  rw [headersOf, List.filterMap_append, List.map_append]
  rfl

theorem names_append (first second : List (String × String)) (header token : String) :
    names (first ++ second) header token =
      (names first header token || names second header token) := by
  rw [names, List.filter_append, List.flatMap_append, List.any_append]
  rfl

theorem any_headersOf (rest : List String) :
    (headersOf rest).any isKey = rest.any fun line => (headersOf [line]).any isKey := by
  induction rest with
  | nil => rfl
  | cons line rest ih =>
      rw [← List.singleton_append, headersOf_append, List.any_append, ih, List.any_append,
        List.any_cons, List.any_nil, Bool.or_false]

theorem trim_space (value : String) : trim (" " ++ value) = trim value := by
  have hlist : (" " ++ value).toList = ' ' :: value.toList := by simp
  rw [trim, trim, hlist, List.dropWhile_cons_of_pos (by decide)]

theorem headersOf_singleton {line name value : String}
    (h : splitOnce line ':' = some (name, value)) :
    headersOf [line] = [(trim name, trim value)] := by
  simp only [headersOf, List.filterMap_cons, List.filterMap_nil, h, List.map_cons, List.map_nil]

theorem headersOf_key {key : String} (hkey : ∀ ch ∈ key.toList, isWhitespace ch = false) :
    headersOf ["Sec-WebSocket-Key: " ++ key] = [("Sec-WebSocket-Key", key)] := by
  have hcut : splitOnce ("Sec-WebSocket-Key: " ++ key) ':' =
      some ("Sec-WebSocket-Key", " " ++ key) := splitOnce_of_eq (by simp) (by decide)
  have hname : trim "Sec-WebSocket-Key" = "Sec-WebSocket-Key" := Proto.Management.trim_of_forall
    (by decide)
  rw [headersOf_singleton hcut, hname, trim_space, Proto.Management.trim_of_forall hkey]

theorem headersOf_own {key : String} (hkey : ∀ ch ∈ key.toList, isWhitespace ch = false) :
    headersOf (ownHeaders key ++ ["", ""]) =
      [("Upgrade", "websocket"), ("Connection", "Upgrade"), ("Sec-WebSocket-Key", key),
        ("Sec-WebSocket-Version", "13")] := by
  have hcut : ownHeaders key ++ ["", ""] = ["Upgrade: websocket", "Connection: Upgrade"] ++
      (["Sec-WebSocket-Key: " ++ key] ++ ["Sec-WebSocket-Version: 13", "", ""]) := rfl
  have hbefore : headersOf ["Upgrade: websocket", "Connection: Upgrade"] =
      [("Upgrade", "websocket"), ("Connection", "Upgrade")] := by decide
  have hbehind : headersOf ["Sec-WebSocket-Version: 13", "", ""] =
      [("Sec-WebSocket-Version", "13")] := by decide
  rw [hcut, headersOf_append, headersOf_append, hbefore, headersOf_key hkey, hbehind]
  rfl

theorem parseRequest_ok {head first name key : String} {rest : List String}
    (hlines : lines head = first :: rest)
    (hget : (words isWhitespace first).head? = some "GET")
    (hupgrade : names (headersOf rest) "upgrade" "websocket")
    (hconnection : names (headersOf rest) "connection" "upgrade")
    (hversion : names (headersOf rest) "sec-websocket-version" "13")
    (hkey : (headersOf rest).find? isKey = some (name, key)) :
    parseRequest head = .ok ⟨key⟩ := by
  rw [parseRequest, hlines]
  simp only [List.head?_cons, Option.getD_some, hget, ne_eq, not_true, if_false, List.tail_cons,
    hupgrade, hconnection, hversion, hkey]

theorem find_of_parseRequest {head : String} {request : Request}
    (h : parseRequest head = .ok request) :
    ∃ name, (headersOf (lines head).tail).find? isKey = some (name, request.key) := by
  rw [parseRequest] at h
  split at h
  · cases h
  simp only at h
  split at h
  · cases h
  split at h
  · cases h
  split at h
  · cases h
  split at h
  · cases h
  · next name value hfind =>
      cases h
      exact ⟨name, hfind⟩

/-! ## The key of a request -/

theorem isWhitespace_of_lt {ch : Char} (hlow : 32 < ch.toNat) (hhigh : ch.toNat < 128) :
    isWhitespace ch = false := by
  simp [isWhitespace]
  omega

theorem isWhitespace_of_mem_clientKey {nonce : Octets} :
    ∀ ch ∈ (clientKey nonce).toList, isWhitespace ch = false := by
  have hletter : ∀ six < 64, 32 < (Proto.Base64.letter six).toNat := by decide
  intro ch hmem
  obtain ⟨octet, rest, hencode⟩ := List.exists_cons_of_ne_nil
    (String.utf8EncodeChar_ne_nil (c := ch))
  have hoctet : octet ∈ Proto.Base64.encodeOctets nonce := by
    rw [← Proto.Base64.octets_encode, octets_eq_flatMap]
    exact List.mem_flatMap.mpr ⟨ch, hmem, hencode ▸ List.mem_cons_self⟩
  have hplain := (Proto.Base64.encodeOctets_plain nonce octet hoctet).1
  have hlow : 32 < octet.toNat := by
    obtain rfl | ⟨six, hsix, rfl⟩ := Proto.Base64.mem_encodeOctets hoctet
    · decide
    · exact hletter six hsix
  have hch : ch.toNat < 128 := by
    by_contra hwide
    have hle := le_of_mem_utf8EncodeChar (Nat.not_lt.mp hwide)
      (hencode ▸ List.mem_cons_self (a := octet))
    omega
  rw [utf8EncodeChar_ascii hch, List.cons.injEq] at hencode
  have hnat : octet.toNat = ch.toNat := by
    rw [← hencode.1, UInt8.toNat_ofNat', Nat.mod_eq_of_lt (by omega)]
  exact isWhitespace_of_lt (hnat ▸ hlow) hch

theorem return_notMem_clientKey (nonce : Octets) : '\r' ∉ (clientKey nonce).toList := fun hmem =>
  absurd (isWhitespace_of_mem_clientKey _ hmem) (by decide)

/-- A line that does no harm among the headers. -/
def Harmless (line : String) : Prop :=
  line ≠ "" ∧ (headersOf [line]).any isKey = false

/-- Whatever the sixteen octets are, the request is read with the key made of them. -/
def CarriesKey (path host : String) : Prop :=
  ∀ nonce : Octets, nonce.length = 16 →
    ∃ head, deliver (request path host (clientKey nonce)) = some head ∧
      parseRequest head = .ok ⟨clientKey nonce⟩

/-- The lines that are read behind the first, when those of path and host are `brought`. -/
def read (brought : List String) (key : String) : List String :=
  (brought ++ (ownHeaders key ++ ["", ""])).takeWhile (· ≠ "") ++ ["", ""]

theorem takeWhile_own (key : String) :
    (ownHeaders key ++ ["", ""]).takeWhile (· ≠ "") = ownHeaders key := by
  have hown : ∀ line ∈ ownHeaders key, decide (line ≠ "") = true := by
    intro line hmem
    have hkey : "Sec-WebSocket-Key: " ++ key ≠ "" := by
      rw [ne_eq, ← String.toList_inj, String.toList_append]
      exact List.append_ne_nil_of_left_ne_nil (by decide) _
    simp only [ownHeaders, List.mem_cons, List.not_mem_nil, or_false] at hmem
    obtain rfl | rfl | rfl | rfl := hmem
    · decide
    · decide
    · exact decide_eq_true hkey
    · decide
  rw [List.takeWhile_append_of_pos hown, List.takeWhile_cons_of_neg (by simp), List.append_nil]

theorem read_of_harmless {brought : List String} (h : ∀ line ∈ brought, Harmless line)
    (key : String) : read brought key = brought ++ (ownHeaders key ++ ["", ""]) := by
  have hfull : ∀ line ∈ brought, decide (line ≠ "") = true := fun line hmem =>
    decide_eq_true (h line hmem).1
  rw [read, List.takeWhile_append_of_pos hfull, takeWhile_own, List.append_assoc]

/-- With a line among them that does, the key that is read does not depend on the one
that was sent. -/
theorem find_read_of_harm {brought : List String} {line : String} (hmem : line ∈ brought)
    (h : ¬ Harmless line) (first second : String) :
    (headersOf (read brought first)).find? isKey =
      (headersOf (read brought second)).find? isKey := by
  by_cases hblank : "" ∈ brought
  · have hcut (behind : List String) :
        (brought ++ behind).takeWhile (· ≠ "") = brought.takeWhile (· ≠ "") := by
      rw [List.takeWhile_append, if_neg]
      intro hlength
      have hall := List.takeWhile_eq_self_iff.mp
        ((List.takeWhile_prefix fun line => decide (line ≠ "")).eq_of_length hlength)
      simpa using hall "" hblank
    rw [read, read, hcut, hcut]
  · have hfull : ∀ line ∈ brought, decide (line ≠ "") = true := fun line hmem =>
      decide_eq_true fun hempty => hblank (hempty ▸ hmem)
    have hkey : ((headersOf brought).find? isKey).isSome := by
      rw [List.find?_isSome, ← List.any_eq_true, any_headersOf, List.any_eq_true]
      refine ⟨line, hmem, ?_⟩
      rw [← Bool.not_eq_false]
      exact fun hnone => h ⟨fun hempty => hblank (hempty ▸ hmem), hnone⟩
    obtain ⟨header, hheader⟩ := Option.isSome_iff_exists.mp hkey
    have hfind (behind : List String) :
        (headersOf (brought ++ behind)).find? isKey = some header := by
      rw [headersOf_append, List.find?_append, hheader]
      rfl
    rw [read, read, List.takeWhile_append_of_pos hfull, List.takeWhile_append_of_pos hfull,
      List.append_assoc, List.append_assoc, hfind, hfind]

theorem request_eq_append (path host key : String) :
    ∃ before, request path host key = before ++ "\r\n\r\n" ++ "" := by
  refine ⟨opening path host ++ "\r\n" ++ ("Upgrade: websocket" ++ "\r\n" ++
    ("Connection: Upgrade" ++ "\r\n" ++ ("Sec-WebSocket-Key: " ++ key ++ "\r\n" ++
      "Sec-WebSocket-Version: 13"))), ?_⟩
  rw [request_eq, ← String.toList_inj]
  simp only [String.toList_append, List.append_assoc]
  rfl

theorem exists_delivered (path host : String) (nonce : Octets) :
    ∃ head line, deliver (request path host (clientKey nonce)) = some head ∧
      lines head = String.ofList ("GET".toList ++ ' ' :: line) ::
        read (lines (opening path host)).tail (clientKey nonce) := by
  obtain ⟨line, rest, hopening⟩ := exists_lines_opening path host
  have hrequest : lines (request path host (clientKey nonce)) = _ :=
    lines_request (return_notMem_clientKey nonce)
  obtain ⟨before, hbefore⟩ := request_eq_append path host (clientKey nonce)
  rw [hopening, hbefore, List.cons_append] at hrequest
  obtain ⟨head, hdeliver, hlines⟩ := exists_lines_deliver hrequest
  rw [← hbefore] at hdeliver
  refine ⟨head, line, hdeliver, ?_⟩
  rw [hlines, hopening, List.tail_cons]
  rfl

theorem parseRequest_of_harmless {path host head : String} {line : List Char} {nonce : Octets}
    (h : ∀ line ∈ (lines (opening path host)).tail, Harmless line)
    (hlines : lines head = String.ofList ("GET".toList ++ ' ' :: line) ::
      read (lines (opening path host)).tail (clientKey nonce)) :
    parseRequest head = .ok ⟨clientKey nonce⟩ := by
  have hheaders := headersOf_append (lines (opening path host)).tail
    (ownHeaders (clientKey nonce) ++ ["", ""])
  rw [headersOf_own isWhitespace_of_mem_clientKey] at hheaders
  rw [read_of_harmless h] at hlines
  have hnone : (headersOf (lines (opening path host)).tail).find? isKey = none := by
    rw [List.find?_eq_none, ← List.any_eq_false, any_headersOf, List.any_eq_false]
    intro line hmem
    rw [(h line hmem).2]
    exact Bool.false_ne_true
  have hfind : (headersOf ((lines (opening path host)).tail ++
      (ownHeaders (clientKey nonce) ++ ["", ""]))).find? isKey =
        some ("Sec-WebSocket-Key", clientKey nonce) := by
    have hown : isKey ("Sec-WebSocket-Key", clientKey nonce) := by
      change eqIgnoreAsciiCase "Sec-WebSocket-Key" "sec-websocket-key" = true
      decide
    rw [hheaders, List.find?_append, hnone, Option.none_or, List.find?_cons_of_neg (by decide),
      List.find?_cons_of_neg (by decide), List.find?_cons_of_pos hown]
  refine parseRequest_ok hlines (head?_words (by decide) (by decide) (by decide)) ?_ ?_ ?_ hfind
  all_goals
    rw [hheaders, names_append, Bool.or_eq_true]
    exact .inr rfl

theorem clientKey_ne : clientKey (List.replicate 16 0) ≠ clientKey (List.replicate 16 1) := by
  intro heq
  have hoctets := congrArg octets heq
  rw [clientKey, clientKey, Proto.Base64.octets_encode, Proto.Base64.octets_encode] at hoctets
  exact absurd hoctets (by decide)

theorem not_carriesKey {path host line : String} (hmem : line ∈ (lines (opening path host)).tail)
    (hharm : ¬ Harmless line) : ¬ CarriesKey path host := by
  intro hcarries
  obtain ⟨head, hdeliver, hok⟩ := hcarries (List.replicate 16 0) rfl
  obtain ⟨head', hdeliver', hok'⟩ := hcarries (List.replicate 16 1) rfl
  obtain ⟨_, _, hdelivered, hlines⟩ := exists_delivered path host (List.replicate 16 0)
  obtain ⟨_, _, hdelivered', hlines'⟩ := exists_delivered path host (List.replicate 16 1)
  cases hdeliver.symm.trans hdelivered
  cases hdeliver'.symm.trans hdelivered'
  obtain ⟨_, hfind⟩ := find_of_parseRequest hok
  obtain ⟨_, hfind'⟩ := find_of_parseRequest hok'
  rw [hlines, List.tail_cons] at hfind
  rw [hlines', List.tail_cons, ← find_read_of_harm hmem hharm, hfind, Option.some.injEq,
    Prod.mk.injEq] at hfind'
  exact clientKey_ne hfind'.2

/-- The key of a request is read exactly if no line that path and host bring is empty or
a key header. -/
theorem carriesKey_iff (path host : String) :
    CarriesKey path host ↔ ∀ line ∈ (lines (opening path host)).tail, Harmless line := by
  constructor
  · intro hcarries line hmem
    by_contra hharm
    exact not_carriesKey hmem hharm hcarries
  · intro h nonce _
    obtain ⟨head, line, hdeliver, hlines⟩ := exists_delivered path host nonce
    exact ⟨head, hdeliver, parseRequest_of_harmless h hlines⟩

/-- A host that brings a key of its own. -/
theorem host_with_key_not_carried :
    ¬ CarriesKey "/" "example.com\r\nSec-WebSocket-Key: x" := by
  have hmem : "Sec-WebSocket-Key: x" ∈
      (lines (opening "/" "example.com\r\nSec-WebSocket-Key: x")).tail := by decide
  exact not_carriesKey hmem fun h => absurd h.2 (by decide)

end Vortice.Ws.Handshake
