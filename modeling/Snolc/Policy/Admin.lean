import Snolc.Lib.Table
import Snolc.Policy.Records

/-! Administrative requests, their validation, and the sequencer that orders them per client. -/

namespace Snolc.Policy

inductive RuleApply
  | new
  | active
  deriving DecidableEq, Repr

/-- The requests of the administrative interface. -/
inductive ControlRequest
  | userCreate (clientId : String) (seq : Nat) (user : UserSpec)
  | userUpdate (clientId : String) (seq : Nat) (userId : String) (expectedRevision : Nat)
      (user : UserSpec)
  | userDisable (clientId : String) (seq : Nat) (userId : String) (expectedRevision : Nat)
  | userDelete (clientId : String) (seq : Nat) (userId : String) (expectedRevision : Nat)
  | credentialAdd (clientId : String) (seq : Nat) (userId credentialSha256 : String)
  | credentialRevoke (clientId : String) (seq : Nat) (credentialSha256 : String)
  | quotaAdd (clientId : String) (seq : Nat) (userId : String) (bytes : Nat)
  | quotaNewPeriod (clientId : String) (seq : Nat) (userId : String) (quota : ByteLimit)
  | usageGet (userId : String)
  | sessionsList (userId : Option String)
  | sessionsDisconnect (clientId : String) (seq : Nat) (sessionId : Nat)
  | rulesReplace (clientId : String) (seq : Nat) (profile : String) (apply : RuleApply)
      (rulesToml : String)
  | maintenanceBackup (destination : String)
  deriving DecidableEq, Repr

/-- Sixteen random bytes name a user. -/
def userIdParse (input : String) : Except AdminError Bytes :=
  decodeHex 16 input

/-- Thirty-two bytes of SHA-256 name a credential. -/
def credentialDigestParse (input : String) : Except AdminError Bytes :=
  decodeHex 32 input

variable (clientId : String)

/-- Client names are short and use a plain alphabet. -/
def validateClientId : Except AdminError Unit :=
  if clientId.isEmpty
      ∨ clientId.utf8ByteSize > 64
      ∨ !clientId.toList.all (fun c => c.isAlphanum || c = '-' || c = '_') then
    .error .invalid
  else .ok ()

namespace ControlRequest

/-- The client and the sequence number of a mutating request. -/
def sequence : ControlRequest → Option (String × Nat)
  | userCreate clientId seq _
  | userUpdate clientId seq _ _ _
  | userDisable clientId seq _ _
  | userDelete clientId seq _ _
  | credentialAdd clientId seq _ _
  | credentialRevoke clientId seq _
  | quotaAdd clientId seq _ _
  | quotaNewPeriod clientId seq _ _
  | sessionsDisconnect clientId seq _
  | rulesReplace clientId seq _ _ _ => some (clientId, seq)
  | usageGet _ | sessionsList _ | maintenanceBackup _ => none

/-- The checks of a request beyond its sequence number. -/
def validateBody : ControlRequest → Except AdminError Unit
  | userCreate _ _ user => user.validate
  | userUpdate _ _ userId _ user => do
    user.validate
    discard <| userIdParse userId
  | userDisable _ _ userId _
  | userDelete _ _ userId _
  | quotaNewPeriod _ _ userId _
  | usageGet userId
  | sessionsList (some userId) => discard <| userIdParse userId
  | credentialAdd _ _ userId credentialSha256 => do
    discard <| userIdParse userId
    discard <| credentialDigestParse credentialSha256
  | credentialRevoke _ _ credentialSha256 => discard <| credentialDigestParse credentialSha256
  | quotaAdd _ _ userId bytes => do
    discard <| userIdParse userId
    if bytes = 0 then throw .invalid
  | rulesReplace _ _ profile _ rulesToml =>
    if profile.isEmpty ∨ profile.utf8ByteSize > 64
        ∨ rulesToml.isEmpty ∨ rulesToml.utf8ByteSize > 65536 then
      .error .invalid
    else .ok ()
  | sessionsDisconnect _ _ sessionId => if sessionId = 0 then .error .invalid else .ok ()
  | maintenanceBackup destination =>
    if destination.utf8ByteSize > 4096 ∨ destination.toList.head? ≠ some '/' then .error .invalid
    else .ok ()
  | sessionsList none => .ok ()

/-- Whether a decoded request is acceptable. -/
def validate (request : ControlRequest) : Except AdminError Unit := do
  match request.sequence with
  | some (clientId, seq) =>
    validateClientId clientId
    if seq = 0 then throw .sequence
  | none => pure ()
  request.validateBody

/-- Decode a request and check it. -/
def parse (decode : Bytes → Option ControlRequest) (input : Bytes) :
    Except AdminError ControlRequest :=
  match decode input with
  | none => .error .invalid
  | some request => do
    request.validate
    return request

theorem parse_sequence_pos {decode : Bytes → Option ControlRequest} {input : Bytes}
    {request : ControlRequest} (parsed : parse decode input = .ok request) {clientId : String}
    {seq : Nat} (sequenced : request.sequence = some (clientId, seq)) : 0 < seq := by
  unfold parse at parsed
  cases decoded : decode input with
  | none => simp [decoded] at parsed
  | some candidate =>
    cases checked : candidate.validate with
    | error => simp [decoded, checked, Bind.bind, Except.bind] at parsed
    | ok =>
      simp only [decoded, checked, Bind.bind, Except.bind, Pure.pure, Except.pure,
        Except.ok.injEq] at parsed
      subst parsed
      -- Validation refuses a zero before it looks at the body.
      rcases Nat.eq_zero_or_pos seq with zero | positive
      · subst zero
        simp only [validate, sequenced] at checked
        cases named : validateClientId clientId <;>
          simp [named, Bind.bind, Except.bind, throw, throwThe, MonadExceptOf.throw] at checked
      · exact positive

end ControlRequest

/-- What is kept of a client's last applied request. -/
structure Receipt where
  seq : Nat
  requestHash : Bytes
  response : Bytes
  deriving DecidableEq, Repr

/-- The last receipt of every client. -/
structure AdminSequencer where
  maxClients : Nat
  clients : Table String Receipt

/-- What is to be done with a sequenced request. -/
inductive AdminDecision
  | execute (requestHash : Bytes)
  | replay (response : Bytes)

namespace AdminSequencer

/-- A sequencer that knows no client. -/
def new (maxClients : Nat) : Except AdminError AdminSequencer :=
  if maxClients = 0 then .error .invalid else .ok { maxClients, clients := ∅ }

variable (sequencer : AdminSequencer)

/-- Decide whether a request is the next one, a repetition of the last one, or neither. -/
def check (sha256 : Bytes → Bytes) (clientId : String) (seq : Nat)
    (request : Bytes) : Except AdminError AdminDecision := do
  validateClientId clientId
  let requestHash := sha256 request
  match sequencer.clients.lookup clientId with
  | none =>
    if sequencer.clients.len ≥ sequencer.maxClients then .error .clientLimit
    else if seq = 1 then .ok (.execute requestHash)
    else .error .sequence
  | some receipt =>
    if seq = receipt.seq ∧ requestHash = receipt.requestHash then .ok (.replay receipt.response)
    else if seq = wrappingAdd receipt.seq 1 then .ok (.execute requestHash)
    else .error .sequence

/-- The receipt to be stored with a mutation. -/
def prepareCommit (seq : Nat) (requestHash response : Bytes) : Except AdminError Receipt := do
  validateClientId clientId
  match sequencer.clients.lookup clientId with
  | none =>
    if sequencer.clients.len ≥ sequencer.maxClients then throw .clientLimit
    else if seq ≠ 1 then throw .state
  | some receipt => if seq ≠ wrappingAdd receipt.seq 1 then throw .state
  return { seq, requestHash, response }

/-- Make a stored receipt the client's last one. -/
def applyCommit (receipt : Receipt) : Except AdminError AdminSequencer := do
  discard <| sequencer.prepareCommit clientId receipt.seq receipt.requestHash receipt.response
  return { sequencer with clients := sequencer.clients.insert clientId receipt }

/-- Take over a receipt found in the store at start-up. -/
def restore (receipt : Receipt) : Except AdminError AdminSequencer := do
  validateClientId clientId
  if (sequencer.clients.lookup clientId).isNone ∧
      sequencer.clients.len ≥ sequencer.maxClients then
    throw .clientLimit
  return { sequencer with clients := sequencer.clients.insert clientId receipt }

theorem check_execute {sequencer : AdminSequencer} {sha256 : Bytes → Bytes} {clientId : String}
    {seq : Nat} {request requestHash : Bytes}
    (checked : sequencer.check sha256 clientId seq request = .ok (.execute requestHash)) :
    requestHash = sha256 request := by
  unfold check at checked
  cases named : validateClientId clientId with
  | error => simp [named, Bind.bind, Except.bind] at checked
  | ok =>
    simp only [named, Bind.bind, Except.bind] at checked
    cases known : sequencer.clients.lookup clientId <;> simp only [known] at checked
    all_goals
      repeat' split at checked
      all_goals simp_all

end AdminSequencer

end Snolc.Policy
