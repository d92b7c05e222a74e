import Vortice.Proto.Canonical
import Vortice.Sasl.Exchange

/-!
# An honest SCRAM client

What RFC5802 and RFC7677 have a client say, written from those documents and not from
the listener: it escapes its names, reads the listener's first message, derives its
keys from the password, and knows which signature to expect.  Every such client is
accepted, and taken for whom it says it is.
-/

namespace Vortice.Sasl

open Vortice.Foundation

/-- PBKDF2 with HMAC-SHA-256, of a password, a salt and an iteration count. -/
abbrev KeyDerivation := Octets → Octets → UInt32 → Vector UInt8 32

section Keys

variable (digests : Digests) (pbkdf2 : KeyDerivation)

/-- Derives what to store from a password, a salt and an iteration count. -/
def ScramCredentials.derive (password : String) (salt : Octets) (iterations : UInt32) :
    ScramCredentials :=
  let salted := pbkdf2 (octets password) salt iterations
  let clientKey := digests.hmacSha256 salted.toList (octets "Client Key")
  let serverKey := digests.hmacSha256 salted.toList (octets "Server Key")
  { salt, iterations, storedKey := digests.sha256 clientKey.toList, serverKey }

end Keys

/-! ## The client -/

/-- A comma and an equals sign in a name are escaped. -/
def escapeNameChar : Char → List Char
  | ',' => "=2C".toList
  | '=' => "=3D".toList
  | ch => [ch]

def escapeName (name : String) : String :=
  String.ofList (name.toList.flatMap escapeNameChar)

/-- A client without channel binding; `y` says that it would have used it. -/
structure ScramClient where
  couldBind : Bool
  user : String
  authorization : String
  password : String
  nonce : String
  nonce_plain : ',' ∉ nonce.toList

/-- What a client reads in the first message of the listener. -/
structure ServerFirst where
  nonce : String
  salt : Octets
  iterations : UInt32
  deriving DecidableEq

/-- The value of the field with this letter, if it is the first in the list. -/
def takeField (letter : Char) : List String → Option (String × List String)
  | [] => none
  | field :: later =>
      match field.toList with
      | found :: '=' :: value =>
          if found = letter then some (String.ofList value, later) else none
      | _ => none

/-- An iteration count in decimal. -/
def readCount (count : String) : Option UInt32 :=
  if count ≠ "" ∧ count.toList.all Char.isDigit then
    some (UInt32.ofNat (Nat.ofDigitChars 10 count.toList 0))
  else none

/-- The grammar of RFC5802 §7: nonce, salt and iteration count, in this order. -/
def ServerFirst.read (message : String) : Option ServerFirst := do
  let (nonce, later) ← takeField 'r' (split message ',')
  let (salt, later) ← takeField 's' later
  let (count, _) ← takeField 'i' later
  return { nonce, salt := ← Proto.Base64.decode salt, iterations := ← readCount count }

namespace ScramClient

variable (client : ScramClient)

def gs2Header : String :=
  (if client.couldBind then "y" else "n") ++ "," ++
    (if client.authorization = "" then "" else "a=" ++ escapeName client.authorization) ++ ","

/-- `client-first-message-bare`. -/
def firstBare : String := "n=" ++ escapeName client.user ++ ",r=" ++ client.nonce

/-- `client-first-message`. -/
def firstMessage : String := client.gs2Header ++ client.firstBare

/-- Who the client is and wants to be. -/
def identity : Identity :=
  ⟨client.user, if client.authorization = "" then none else some client.authorization⟩

variable (digests : Digests) (pbkdf2 : KeyDerivation)

/-- `client-final-message` over the message the listener sent, and the signature the
listener must answer with. -/
def finalMessage (serverFirst : String) : Option (String × Octets) := do
  let server ← ServerFirst.read serverFirst
  guard (client.nonce.toList.isPrefixOf server.nonce.toList)
  let salted := pbkdf2 (octets client.password) server.salt server.iterations
  let clientKey := digests.hmacSha256 salted.toList (octets "Client Key")
  let storedKey := digests.sha256 clientKey.toList
  let serverKey := digests.hmacSha256 salted.toList (octets "Server Key")
  let withoutProof :=
    "c=" ++ Proto.Base64.encode (octets client.gs2Header) ++ ",r=" ++ server.nonce
  let message := octets (client.firstBare ++ "," ++ serverFirst ++ "," ++ withoutProof)
  let proof := List.zipWith (· ^^^ ·) clientKey.toList
    (digests.hmacSha256 storedKey.toList message).toList
  return (withoutProof ++ ",p=" ++ Proto.Base64.encode proof,
    (digests.hmacSha256 serverKey.toList message).toList)

end ScramClient

/-! ## Names and fields -/

theorem comma_notMem_escapeName (name : String) : ',' ∉ (escapeName name).toList := by
  rw [escapeName, String.toList_ofList, List.mem_flatMap]
  rintro ⟨ch, -, hmem⟩
  unfold escapeNameChar at hmem
  split at hmem
  · revert hmem
    decide
  · revert hmem
    decide
  · rename_i hcomma _
    exact hcomma (List.mem_singleton.mp hmem).symm

/-- What a name looks like once its commas have come back. -/
def restoredChar (ch : Char) : List Char := if ch = '=' then ['=', '3', 'D'] else [ch]

theorem replaceFrom_escapeNameChar (ch : Char) (rest : List Char) :
    replaceFrom ['=', '2', 'C'] [','] 0 (escapeNameChar ch ++ rest) =
      restoredChar ch ++ replaceFrom ['=', '2', 'C'] [','] 0 rest := by
  unfold escapeNameChar restoredChar
  split
  · simp [replaceFrom, List.isPrefixOf]
  · simp [replaceFrom, List.isPrefixOf]
  · rename_i hequals
    rw [if_neg hequals]
    simp [replaceFrom, List.isPrefixOf, Ne.symm hequals]

theorem replaceFrom_restoredChar (ch : Char) (rest : List Char) :
    replaceFrom ['=', '3', 'D'] ['='] 0 (restoredChar ch ++ rest) =
      [ch] ++ replaceFrom ['=', '3', 'D'] ['='] 0 rest := by
  unfold restoredChar
  split
  · rename_i hequals
    subst hequals
    simp [replaceFrom, List.isPrefixOf]
  · rename_i hequals
    simp [replaceFrom, List.isPrefixOf, Ne.symm hequals]

theorem unescapeName_escapeName (name : String) : unescapeName (escapeName name) = name := by
  have hcomma : "=2C".toList = ['=', '2', 'C'] ∧ ",".toList = [','] := by decide
  have hequals : "=3D".toList = ['=', '3', 'D'] ∧ "=".toList = ['='] := by decide
  rw [unescapeName, replace, replace, escapeName, hcomma.1, hcomma.2, hequals.1, hequals.2,
    String.toList_ofList, String.toList_ofList, replaceFrom_flatMap replaceFrom_escapeNameChar,
    replaceFrom_flatMap replaceFrom_restoredChar]
  simp

theorem comma_notMem_encode (data : Octets) : ',' ∉ (Proto.Base64.encode data).toList :=
  Proto.Base64.notMem_encode (by decide) (by decide) (by decide) data

theorem comma_notMem_toString (n : Nat) : ',' ∉ (toString n).toList := by
  rw [Nat.toString_eq_repr, Nat.repr, String.toList_ofList]
  intro hmem
  exact absurd (Nat.isDigit_of_mem_toDigits (by omega) (by omega) hmem) (by decide)

theorem readCount_toString (n : UInt32) : readCount (toString n.toNat) = some n := by
  have hlist : (toString n.toNat).toList = Nat.toDigits 10 n.toNat := by
    rw [Nat.toString_eq_repr, Nat.repr, String.toList_ofList]
  have hne : toString n.toNat ≠ "" := by
    intro hempty
    rw [hempty] at hlist
    exact absurd hlist.symm (by simp)
  have hall : (toString n.toNat).toList.all Char.isDigit := by
    rw [hlist, List.all_eq_true]
    exact fun ch hmem => Nat.isDigit_of_mem_toDigits (by omega) (by omega) hmem
  rw [readCount, if_pos ⟨hne, hall⟩, hlist, Nat.ofDigitChars_toDigits (by omega) (by omega),
    UInt32.ofNat_toNat]

/-! ## The messages as the other end reads them -/

theorem attributes_nil {field : String} {name value : String} (hcomma : ',' ∉ field.toList)
    (hfield : field.toList = name.toList ++ '=' :: value.toList) (hname : '=' ∉ name.toList) :
    attributes field = [(name, value)] := by
  rw [attributes, split_of_notMem hcomma]
  simp [splitOnce_of_eq hfield hname]

theorem attributes_cons {text field rest name value : String}
    (htext : text.toList = field.toList ++ ',' :: rest.toList) (hcomma : ',' ∉ field.toList)
    (hfield : field.toList = name.toList ++ '=' :: value.toList) (hname : '=' ∉ name.toList) :
    attributes text = (name, value) :: attributes rest := by
  rw [attributes, split_of_eq htext hcomma, List.filterMap_cons,
    splitOnce_of_eq hfield hname]
  rfl

theorem comma_notMem_lastOf {text name value : String}
    (h : lastOf (attributes text) name = some value) : ',' ∉ value.toList := by
  obtain ⟨⟨other, found⟩, hlast, rfl⟩ := Option.map_eq_some_iff.mp h
  have hmem := (List.mem_filter.mp (List.mem_of_getLast? hlast)).1
  obtain ⟨field, hfield, hcut⟩ := List.mem_filterMap.mp hmem
  have hfound := (splitOnce_eq_some hcut).1
  refine fun hcomma => notMem_of_mem_split hfield ?_
  rw [hfound]
  exact List.mem_append_right _ (List.mem_cons_of_mem _ hcomma)

theorem ClientFinal.read_fields {binding nonce : String} (hbinding : ',' ∉ binding.toList)
    (hnonce : ',' ∉ nonce.toList) (proof : Octets) :
    ClientFinal.read (octets
        ("c=" ++ binding ++ ",r=" ++ nonce ++ ",p=" ++ Proto.Base64.encode proof)) =
      some ⟨binding, nonce, Proto.Base64.encode proof,
        "c=" ++ binding ++ ",r=" ++ nonce⟩ := by
  have hproof := comma_notMem_encode proof
  generalize Proto.Base64.encode proof = sent at hproof ⊢
  have hlast : attributes ("p=" ++ sent) = [("p", sent)] :=
    attributes_nil (by simp [hproof]) (by simp) (by decide)
  have hrest : ("r=" ++ nonce ++ ",p=" ++ sent).toList =
      ("r=" ++ nonce).toList ++ ',' :: ("p=" ++ sent).toList := by simp
  have hfirst : ("c=" ++ binding ++ ",r=" ++ nonce ++ ",p=" ++ sent).toList =
      ("c=" ++ binding).toList ++ ',' :: ("r=" ++ nonce ++ ",p=" ++ sent).toList := by simp
  have hbindingField : ("c=" ++ binding).toList = "c".toList ++ '=' :: binding.toList := by simp
  have hnonceField : ("r=" ++ nonce).toList = "r".toList ++ '=' :: nonce.toList := by simp
  have hfields : attributes ("c=" ++ binding ++ ",r=" ++ nonce ++ ",p=" ++ sent) =
      [("c", binding), ("r", nonce), ("p", sent)] := by
    rw [attributes_cons hfirst (by simp [hbinding]) hbindingField (by decide),
      attributes_cons hrest (by simp [hnonce]) hnonceField (by decide), hlast]
  have hcut : rsplitOnce ("c=" ++ binding ++ ",r=" ++ nonce ++ ",p=" ++ sent) ",p=" =
      some ("c=" ++ binding ++ ",r=" ++ nonce, sent) := by
    have hpattern : ",p=".toList = ',' :: ['p', '='] := by decide
    have hmem : ',' ∉ ['p', '='] ++ sent.toList := by simp [hproof]
    have hcutLast := cutLast_append hmem ("c=" ++ binding ++ ",r=" ++ nonce).toList
    rw [rsplitOnce, String.toList_append, String.toList_append, hpattern, List.append_assoc,
      List.cons_append, hcutLast, Option.map_some]
    dsimp only
    rw [String.ofList_toList, String.ofList_toList]
  have hread : lastOf [("c", binding), ("r", nonce), ("p", sent)] "c" = some binding ∧
      lastOf [("c", binding), ("r", nonce), ("p", sent)] "r" = some nonce ∧
      lastOf [("c", binding), ("r", nonce), ("p", sent)] "p" = some sent := by
    simp [lastOf]
  rw [ClientFinal.read, text_octets]
  simp only [Option.bind_eq_bind, Option.bind_some, hfields, hread.1, hread.2.1, hread.2.2, hcut,
    Option.pure_def]

/-- The key the listener recovers from a proof is the one that went into it. -/
theorem zipWith_xor_self {key mask : Octets} (h : key.length = mask.length) :
    List.zipWith (· ^^^ ·) (List.zipWith (· ^^^ ·) key mask) mask = key := by
  induction key generalizing mask with
  | nil => rfl
  | cons octet key ih =>
      cases mask with
      | nil => cases h
      | cons hidden mask =>
          have hlength : key.length = mask.length := Nat.succ.inj h
          simp only [List.zipWith_cons_cons, UInt8.xor_assoc, UInt8.xor_self, UInt8.xor_zero,
            ih hlength]

theorem ScramExchange.proves_key {digests : Digests} {credentials : ScramCredentials}
    {clientKey : Vector UInt8 32}
    (hkey : digests.sha256 clientKey.toList = credentials.storedKey) (message : String) :
    proves digests credentials message (List.zipWith (· ^^^ ·) clientKey.toList
      (digests.hmacSha256 credentials.storedKey.toList (octets message)).toList) := by
  dsimp only [proves]
  rw [zipWith_xor_self (by simp)]
  exact decide_eq_true hkey

namespace ScramClient

variable (client : ScramClient)

def flag : String := if client.couldBind then "y" else "n"

/-- What stands between the two commas of the header. -/
def authzid : String :=
  if client.authorization = "" then "" else "a=" ++ escapeName client.authorization

theorem firstMessage_toList : client.firstMessage.toList =
    client.flag.toList ++ ',' :: (client.authzid ++ "," ++ client.firstBare).toList := by
  simp [firstMessage, gs2Header, flag, authzid]

theorem comma_notMem_authzid : ',' ∉ client.authzid.toList := by
  unfold authzid
  split
  · simp
  · simp [comma_notMem_escapeName]

theorem attributes_firstBare :
    attributes client.firstBare = [("n", escapeName client.user), ("r", client.nonce)] := by
  have hnonce : attributes ("r=" ++ client.nonce) = [("r", client.nonce)] :=
    attributes_nil (by simp [client.nonce_plain]) (by simp) (by decide)
  have hbare : client.firstBare.toList = ("n=" ++ escapeName client.user).toList ++
      ',' :: ("r=" ++ client.nonce).toList := by simp [firstBare]
  have huser : ("n=" ++ escapeName client.user).toList = "n".toList ++
      '=' :: (escapeName client.user).toList := by simp
  rw [attributes_cons hbare (by simp [comma_notMem_escapeName]) huser (by decide), hnonce]

theorem read_firstMessage :
    ClientFirst.read (octets client.firstMessage) =
      .ok ⟨client.flag, client.authzid, client.firstBare, client.user, client.nonce⟩ := by
  have hflag : ',' ∉ client.flag.toList ∧ (stripPrefix client.flag "p").isSome = false ∧
      ¬ (client.flag ≠ "n" ∧ client.flag ≠ "y") := by
    unfold flag
    cases client.couldBind <;> decide
  have hrest : (client.authzid ++ "," ++ client.firstBare).toList =
      client.authzid.toList ++ ',' :: client.firstBare.toList := by simp
  have huser : lastOf (attributes client.firstBare) "n" = some (escapeName client.user) := by
    simp [client.attributes_firstBare, lastOf]
  have hnonce : lastOf (attributes client.firstBare) "r" = some client.nonce := by
    simp [client.attributes_firstBare, lastOf]
  simp only [ClientFirst.read, text_octets,
    splitOnce_of_eq client.firstMessage_toList hflag.1, hflag.2.1, Bool.false_eq_true, if_false,
    if_neg hflag.2.2, splitOnce_of_eq hrest client.comma_notMem_authzid, huser, hnonce,
    unescapeName_escapeName]

theorem authorization_read (nonce : String) :
    ClientFirst.authorization ⟨client.flag, client.authzid, client.firstBare, client.user, nonce⟩ =
      client.identity.authorizationId := by
  unfold ClientFirst.authorization identity authzid
  by_cases hempty : client.authorization = ""
  · rw [if_pos hempty, if_pos hempty]
    rfl
  · rw [if_neg hempty, if_neg hempty, stripPrefix, String.toList_append, isPrefixOf?_append]
    have hname : escapeName client.authorization ≠ "" := by
      intro h
      have hback := unescapeName_escapeName client.authorization
      rw [h] at hback
      exact hempty hback.symm
    simp [hname, unescapeName_escapeName]

end ScramClient

theorem ServerFirst.read_serverFirst {nonce : String} (hnonce : ',' ∉ nonce.toList)
    (credentials : ScramCredentials) :
    ServerFirst.read (ScramExchange.serverFirst nonce credentials) =
      some ⟨nonce, credentials.salt, credentials.iterations⟩ := by
  have hplain := comma_notMem_toString credentials.iterations.toNat
  have hread := readCount_toString credentials.iterations
  rw [ScramExchange.serverFirst]
  generalize toString credentials.iterations.toNat = count at hplain hread ⊢
  have hcount : split ("i=" ++ count) ',' = ["i=" ++ count] :=
    split_of_notMem (by simp [hplain])
  have hsalt : ("s=" ++ Proto.Base64.encode credentials.salt ++ ",i=" ++ count).toList =
      ("s=" ++ Proto.Base64.encode credentials.salt).toList ++ ',' :: ("i=" ++ count).toList := by
    simp
  have hfirst : ("r=" ++ nonce ++ ",s=" ++ Proto.Base64.encode credentials.salt ++ ",i=" ++
      count).toList = ("r=" ++ nonce).toList ++
        ',' :: ("s=" ++ Proto.Base64.encode credentials.salt ++ ",i=" ++ count).toList := by
    simp
  have hsplit := split_of_eq hfirst (by simp [hnonce])
  rw [split_of_eq hsalt (by simp [comma_notMem_encode]), hcount] at hsplit
  simp [ServerFirst.read, hsplit, takeField, hread]

namespace ScramClient

variable (client : ScramClient)

/-- What the client's proof is computed over ends so. -/
def withoutProof (nonce : String) : String :=
  "c=" ++ Proto.Base64.encode (octets client.gs2Header) ++ ",r=" ++ nonce

theorem read_finalMessage {nonce : String} (hnonce : ',' ∉ nonce.toList) (proof : Octets) :
    ClientFinal.read
        (octets (client.withoutProof nonce ++ ",p=" ++ Proto.Base64.encode proof)) =
      some ⟨Proto.Base64.encode (octets client.gs2Header), nonce, Proto.Base64.encode proof,
        client.withoutProof nonce⟩ :=
  ClientFinal.read_fields (comma_notMem_encode _) hnonce proof

variable (authenticator : Authenticator) (digests : Digests) (pbkdf2 : KeyDerivation)

theorem step_firstMessage {context : Context} {credentials : ScramCredentials}
    (challenge : Randomness)
    (hstored : authenticator.scram context client.user = some credentials) :
    ScramExchange.step authenticator digests ⟨context, .start⟩ challenge
        (octets client.firstMessage) =
      let nonce := client.nonce ++ Proto.Base64.encode challenge.octets
      let answer := ScramExchange.serverFirst nonce credentials
      (.continues (octets answer), ⟨context, .challenged client.user
        client.identity.authorizationId credentials nonce
          (client.firstBare ++ "," ++ answer)⟩) := by
  simp only [ScramExchange.step, ScramExchange.first, read_firstMessage, hstored,
    authorization_read]

theorem finalMessage_eq {serverFirst nonce : String} {salt : Octets} {iterations : UInt32}
    (hread : ServerFirst.read serverFirst = some ⟨nonce, salt, iterations⟩)
    (hnonce : client.nonce.toList.isPrefixOf nonce.toList) :
    let salted := pbkdf2 (octets client.password) salt iterations
    let clientKey := digests.hmacSha256 salted.toList (octets "Client Key")
    let credentials := ScramCredentials.derive digests pbkdf2 client.password salt iterations
    let message := octets (client.firstBare ++ "," ++ serverFirst ++ "," ++
      client.withoutProof nonce)
    let proof := List.zipWith (· ^^^ ·) clientKey.toList
      (digests.hmacSha256 credentials.storedKey.toList message).toList
    client.finalMessage digests pbkdf2 serverFirst =
      some (client.withoutProof nonce ++ ",p=" ++ Proto.Base64.encode proof,
        (digests.hmacSha256 credentials.serverKey.toList message).toList) := by
  simp only [finalMessage, hread, Option.bind_eq_bind, Option.bind_some, hnonce, guard, if_true,
    Option.pure_def]
  rfl

/-- Every honest client whose password the listener derived its credentials from is
accepted, as the user it is and for the identity it asks for, and gets the signature it
expects. -/
theorem completes (context : Context) (salt : Octets) (iterations : UInt32)
    (challenge later : Randomness)
    (hstored : authenticator.scram context client.user =
      some (.derive digests pbkdf2 client.password salt iterations)) :
    ∃ serverFirst exchange finalMessage signature,
      ScramExchange.step authenticator digests ⟨context, .start⟩ challenge
          (octets client.firstMessage) = (.continues (octets serverFirst), exchange) ∧
        client.finalMessage digests pbkdf2 serverFirst = some (finalMessage, signature) ∧
        (exchange.step authenticator digests later (octets finalMessage)).1 =
          .completeWith client.identity
            (octets ("v=" ++ Proto.Base64.encode signature)) := by
  have hnonce : ',' ∉ (client.nonce ++ Proto.Base64.encode challenge.octets).toList := by
    simp [client.nonce_plain, comma_notMem_encode]
  have hextends : client.nonce.toList.isPrefixOf
      (client.nonce ++ Proto.Base64.encode challenge.octets).toList := by
    rw [List.isPrefixOf_iff_prefix, String.toList_append]
    exact List.prefix_append ..
  have hread : ServerFirst.read (ScramExchange.serverFirst
      (client.nonce ++ Proto.Base64.encode challenge.octets)
      (.derive digests pbkdf2 client.password salt iterations)) = some ⟨_, salt, iterations⟩ :=
    ServerFirst.read_serverFirst hnonce _
  refine ⟨_, _, _, _, client.step_firstMessage authenticator digests challenge hstored,
    client.finalMessage_eq digests pbkdf2 hread hextends, ?_⟩
  dsimp only [ScramExchange.step, ScramExchange.finalMessage]
  rw [client.read_finalMessage hnonce]
  dsimp only
  rw [if_neg (not_not_intro rfl), Proto.Base64.decode_encode, Proto.Base64.decode_encode,
    if_neg (by simp)]
  dsimp only
  rw [if_neg (by simp)]
  exact if_neg (not_not_intro (ScramExchange.proves_key rfl _))

/-- The user `a,b=c`, who wants to be `=2C`. -/
def sample : ScramClient where
  couldBind := false
  user := "a,b=c"
  authorization := "=2C"
  password := "secret"
  nonce := "r"
  nonce_plain := by decide

theorem completes_sample :
    let authenticator : Authenticator :=
      { Authenticator.refusing with
        scram := fun _ name => if name = "a,b=c" then
          some (.derive .zero (fun _ _ _ => .replicate 32 0) "secret" [1] 4096) else none }
    ∃ serverFirst exchange finalMessage signature,
      ScramExchange.step authenticator .zero ⟨⟨none⟩, .start⟩ ⟨[7], 0⟩
          (octets sample.firstMessage) = (.continues (octets serverFirst), exchange) ∧
        sample.finalMessage .zero (fun _ _ _ => .replicate 32 0) serverFirst =
          some (finalMessage, signature) ∧
        (exchange.step authenticator .zero ⟨[], 0⟩ (octets finalMessage)).1 =
          .completeWith ⟨"a,b=c", some "=2C"⟩
            (octets ("v=" ++ Proto.Base64.encode signature)) := by
  refine completes sample _ .zero (fun _ _ _ => .replicate 32 0) ⟨none⟩ [1] 4096 ⟨[7], 0⟩
    ⟨[], 0⟩ ?_
  rfl

end ScramClient

end Vortice.Sasl
