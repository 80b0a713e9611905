/-
Provision.Peer.Enode — addresses of peers.

An enode address names a peer by its 128 hexadecimal digits and says
where it listens:

    enode://<digits>@<host>:<port>
    enode://<digits>@<host>:<port>?discport=<port>

It is kept as it was written. `Enode` carries the proof that its text has
this form.
-/
import Provision.EncodingError
import Provision.Peer.Host

namespace Provision

namespace Enode

/-- What an address begins with. -/
def scheme : List Char := ['e', 'n', 'o', 'd', 'e', ':', '/', '/']

/-- What the port for discovery is introduced by. -/
def discoveryKey : List Char := ['d', 'i', 's', 'c', 'p', 'o', 'r', 't', '=']

/-- The 128 hexadecimal digits of a peer's public key. -/
def isNodeId (s : List Char) : Bool :=
  s.length = 128 && s.all Hex.isDigit

/-- A number of 16 bits. -/
def isPort (s : List Char) : Bool :=
  (Decimal.readBelow 65536 s).isSome

/-- A host and a port. -/
def isEndpoint (s : List Char) : Bool :=
  match Text.cutLast ':' s with
  | some (host, port) => Host.isHost host && isPort port
  | none => false

/-- The port for discovery. -/
def isQuery (s : List Char) : Bool :=
  match discoveryKey.isPrefixOf? s with
  | some port => isPort port
  | none => false

/-- An endpoint and perhaps a port for discovery. -/
def isLocation (s : List Char) : Bool :=
  match Text.cutFirst '?' s with
  | some (endpoint, query) => isQuery query && isEndpoint endpoint
  | none => isEndpoint s

/-- Whether the text is the address of a peer. -/
def isEnode (s : List Char) : Bool :=
  match scheme.isPrefixOf? s >>= Text.cutFirst '@' with
  | some (nodeId, location) => isNodeId nodeId && isLocation location
  | none => false

end Enode

/-- The address of a peer. -/
structure Enode where
  text : String
  valid : Enode.isEnode text.toList = true
deriving DecidableEq

namespace Enode

/-- Reads the address of a peer. -/
def ofText (s : String) : Except EncodingError Enode :=
  if h : isEnode s.toList = true then .ok ⟨s, h⟩ else .error (.invalidEnode s)

/-- An address reads back as itself. -/
theorem ofText_text (e : Enode) : ofText e.text = .ok e := by
  simp [ofText, e.valid]

/-- An address is kept as it was written. -/
theorem text_eq_of_ofText {s : String} {e : Enode} (h : ofText s = .ok e) : e.text = s := by
  simp only [ofText] at h
  split at h
  · rw [← Except.ok.inj h]
  · exact nomatch h

/-- A text is refused exactly when it does not have the form of an address. -/
theorem ofText_eq_error_iff {s : String} {err : EncodingError} :
    ofText s = .error err ↔ isEnode s.toList = false ∧ err = .invalidEnode s := by
  simp only [ofText]
  split
  · rename_i h
    simp [h]
  · rename_i h
    simp [h, eq_comm]

end Enode

end Provision
