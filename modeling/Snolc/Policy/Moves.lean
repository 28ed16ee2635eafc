import Snolc.Policy.PumpLaws
import Snolc.Policy.Steps

/-! Sessions and host calls as changes, and the rule for proving invariants of the machine. -/

namespace Snolc.Policy

open State StorageWorker PolicySession

variable {s : State} {reply session : Nat} {world : World} {input : SessionInput}
  {guard : List Obs → World → Event → Prop} {history : List Obs} {first : SessionStep}
  {event : Event}

variable {env : Env}

def State.putSession (state : State) (handle : Nat) (session : PolicySession) : State :=
  { state with sessions := state.sessions.insert handle session }

theorem State.putSession_lookup (state : State) (handle : Nat) (session : PolicySession) :
    (state.putSession handle session).sessions.lookup handle = some session := by
  simp [putSession]

/-- A session that has been taken out of the table. -/
def Absent (state : State) (handle : Nat) : Prop :=
  state.sessions.erase handle = state.sessions

/-- What a taken out session does is a path of the state that still has it. -/
def Lands (env : Env) (handle : Nat) (rest : State) (session : PolicySession)
    (step : SessionStep) : Prop :=
  Path env (rest.putSession handle session) [] (landSession handle step) ∧
    step.1.sessions = rest.sessions

variable {work : State → PolicySession → SessionStep}

section Lands

variable {handle : Nat} {rest : State} {session : PolicySession}

theorem Lands.fail (absent : Absent rest handle) (status : Status) :
    Lands env handle rest session (rest, .error status) := by
  have erased := Table.erase_insert_of_absent session absent
  have dropped : Path env (rest.putSession handle session) [] _ := .single (.dropped handle)
  simp only [putSession, erased] at dropped
  exact ⟨dropped, rfl⟩

theorem Lands.tune (absent : Absent rest handle) {result : Except Status PolicySession}
    (shape : ∀ next, result = .ok next → ∃ channel subscribed lastStatus,
      next = { session with channel, subscribed, lastStatus }) :
    Lands env handle rest session (rest, result) := by
  cases result with
  | error status => exact .fail absent status
  | ok next =>
    obtain ⟨channel, subscribed, lastStatus, rfl⟩ := shape next rfl
    have tuned : Path env (rest.putSession handle session) [] _ :=
      .single (.tuned channel subscribed lastStatus (rest.putSession_lookup handle session))
    simp only [putSession, AList.insert_insert] at tuned
    exact ⟨tuned, rfl⟩

theorem queueResponse_shape {next : PolicySession} {response : String}
    (ok : session.queueResponse response = .ok next) :
    ∃ channel, next = { session with channel } := by
  unfold queueResponse at ok
  split at ok
  · cases ok
  · cases ok
    exact ⟨_, rfl⟩

theorem replaceSnapshot_shape {next : PolicySession} {snapshot : String}
    (ok : session.replaceSnapshot snapshot = .ok next) :
    ∃ channel, next = { session with channel } := by
  unfold replaceSnapshot at ok
  split at ok
  · cases ok
  · cases ok
    exact ⟨_, rfl⟩

variable (absent : Absent rest handle)
include absent

theorem Lands.deny (unnamed : session.userId = none)
    (reason : String) : Lands env handle rest session (rest, session.queueDenied reason) := by
  cases queued : session.queueDenied reason with
  | error status => exact .fail absent status
  | ok =>
    obtain ⟨channel, rfl⟩ := queueResponse_shape queued
    have denied : Path env (rest.putSession handle session) [] _ :=
      .single (.denied channel (rest.putSession_lookup handle session) unnamed)
    simp only [putSession, AList.insert_insert] at denied
    exact ⟨denied, rfl⟩

theorem presentCredential_lands (server : session.role = .server) (credential : String) :
    Lands env handle rest session (presentCredential env rest session credential) := by
  unfold presentCredential
  by_cases waiting : session.auth = .waiting
  · simp only [waiting, ne_eq, not_true_eq_false, if_false]
    cases decoded : decodeHex 32 credential with
    | error => exact .fail absent _
    | ok bytes =>
      dsimp only
      cases sent : rest.storage.get (.credential (credentialDigest env bytes)) with
      | error => exact .fail absent _
      | ok result =>
        obtain ⟨reply, storage⟩ := result
        obtain ⟨rfl, rfl⟩ := get_ok sent
        have presented : Path env (rest.putSession handle session) [] _ :=
          .single (.presented (credentialDigest env bytes)
            (rest.putSession_lookup handle session) server waiting)
        simp only [putSession, AList.insert_insert] at presented
        exact ⟨presented, rfl⟩
  · simp only [waiting, ne_eq, not_false_eq_true, if_true]
    exact .fail absent _

theorem respondStatus_lands :
    Lands env handle rest session (rest, respondStatus env rest session) := by
  refine .tune absent fun next ok => ?_
  unfold respondStatus at ok
  split at ok
  · cases ok
  obtain ⟨text, _, queued⟩ := bind_ok ok
  obtain ⟨channel, rfl⟩ := queueResponse_shape queued
  exact ⟨channel, _, _, rfl⟩

theorem subscribe_lands (instant : Nat) :
    Lands env handle rest session (rest, subscribe env rest session instant) := by
  refine .tune absent fun next ok => ?_
  unfold subscribe at ok
  split at ok
  · cases ok
  obtain ⟨text, _, ok⟩ := bind_ok ok
  obtain ⟨tuned, replaced, ok⟩ := bind_ok ok
  obtain ⟨channel, rfl⟩ := replaceSnapshot_shape replaced
  cases ok
  exact ⟨channel, _, _, rfl⟩

theorem refreshSnapshot_lands (instant : Nat) :
    Lands env handle rest session (rest, refreshSnapshot env rest session instant) := by
  refine .tune absent fun next ok => ?_
  unfold refreshSnapshot at ok
  have unchanged : ∃ channel subscribed lastStatus,
      session = { session with channel, subscribed, lastStatus } := ⟨_, _, _, rfl⟩
  split at ok
  · cases ok
    exact unchanged
  split at ok
  · obtain ⟨text, _, ok⟩ := bind_ok ok
    obtain ⟨tuned, replaced, ok⟩ := bind_ok ok
    obtain ⟨channel, rfl⟩ := replaceSnapshot_shape replaced
    cases ok
    exact ⟨channel, _, _, rfl⟩
  · cases ok
    exact unchanged

theorem handleServerStatus_lands (client : session.role = .client) (message : String) :
    Lands env handle rest session (rest, handleServerStatus env session message) := by
  unfold handleServerStatus
  cases decoded : env.decodeStatus message with
  | none => exact .fail absent _
  | some pair =>
    obtain ⟨status, userId⟩ := pair
    dsimp only
    split
    · have named : Path env (rest.putSession handle session) [] _ :=
        .single (.named (userId.getD "remote") (rest.putSession_lookup handle session) client)
      simp only [putSession, AList.insert_insert] at named
      exact ⟨named, rfl⟩
    · exact .fail absent _

theorem handleMessage_lands (instant : Nat) (message : String) :
    Lands env handle rest session (handleMessage env rest session instant message) := by
  unfold handleMessage
  cases role : session.role with
  | client => exact handleServerStatus_lands absent role message
  | server =>
    dsimp only
    unfold handleClientRequest
    cases parsed : ClientRequest.parse env.decodeClient message with
    | error => exact .fail absent _
    | ok request =>
      cases request with
      | auth credential => exact presentCredential_lands absent role credential
      | status => exact respondStatus_lands absent
      | subscribe => exact subscribe_lands absent instant
      | disconnectSelf => exact .fail absent _

theorem Lands.andThen
    (before : Lands env handle rest session first) (after : ∀ next changed, Absent next handle →
      Lands env handle next changed (work next changed)) :
    Lands env handle rest session (continueSession first work) := by
  obtain ⟨next, result⟩ := first
  have sessions : next.sessions = rest.sessions := before.2
  cases result with
  | error => exact before
  | ok changed =>
    have later := after next changed (by rw [Absent, sessions]; exact absent)
    exact ⟨before.1.silent later.1, later.2.trans sessions⟩

end Lands

theorem handleMessages_lands {handle instant : Nat} (messages : List String) {rest : State}
    {session : PolicySession} (absent : Absent rest handle) :
    Lands env handle rest session (handleMessages env instant messages rest session) := by
  -- Each message starts from the state and the session the last one left.
  induction messages generalizing rest session with
  | nil => exact ⟨.refl _, rfl⟩
  | cons message messages ih =>
    exact Lands.andThen absent (handleMessage_lands absent instant message)
      fun _ _ still => ih still

theorem receiveMessages_lands {handle : Nat} {rest : State} {session : PolicySession}
    (absent : Absent rest handle) (input : SessionInput) :
    Lands env handle rest session (receiveMessages env input rest session) := by
  unfold receiveMessages
  cases polled : session.channel.poll input.channel with
  | error => exact .fail absent _
  | ok result =>
    obtain ⟨channel, arrived⟩ := result
    have tuned : Lands env handle rest session (rest, .ok { session with channel }) :=
      .tune absent fun next same => by
        simp only [Except.ok.injEq] at same
        exact ⟨channel, session.subscribed, session.lastStatus, same.symm⟩
    exact tuned.andThen absent fun _ _ still => handleMessages_lands _ still

namespace State

section Turn

variable {s : State} {handle : Nat} {session : PolicySession}

/-- The state a session works on during its turn. -/
def without (state : State) (handle : Nat) : State :=
  { state with sessions := state.sessions.erase handle }

theorem without_absent : Absent (s.without handle) handle :=
  Table.erase_erase s.sessions handle

theorem without_putSession (found : s.sessions.lookup handle = some session) :
    Path env s [] ((s.without handle).putSession handle session) := by
  have tuned : Path env s [] _ :=
    .single (.tuned session.channel session.subscribed session.lastStatus found)
  simpa [putSession, without, Table.insert_erase] using tuned

theorem withSession_path (lands : ∀ session, s.sessions.lookup handle = some session →
      Lands env handle (s.without handle) session (work (s.without handle) session)) :
    Path env s [] (s.withSession handle work) := by
  unfold withSession
  cases found : s.sessions.lookup handle with
  | none => exact .refl s
  | some session => exact (without_putSession found).silent (lands session found).1

theorem receiveMessages_path (s : State) (handle : Nat) (input : SessionInput) :
    Path env s [] (s.withSession handle (receiveMessages env input)) :=
  withSession_path fun _ _ => receiveMessages_lands without_absent input

theorem advanceSession_lands
    (same : advanceAuthentication env (s.without handle) session input.utc = first)
    (lands : Lands env handle (s.without handle) session first) :
    Lands env handle (s.without handle) session
      (advanceSession env input (s.without handle) session) := by
  unfold advanceSession
  rw [same]
  exact lands.andThen without_absent fun _ _ still => refreshSnapshot_lands still input.instant

/-- The turn of a session is a move. -/
abbrev Turns (env : Env) (s : State) (handle : Nat) (session : PolicySession)
    (input : SessionInput) : Prop :=
  Move env s (.advanceSession input) []
    (landSession handle (advanceSession env input (s.without handle) session))

theorem advanceSession_login {user : UserRecord}
    (same : advanceAuthentication env (s.without handle) session input.utc =
      finishAuthentication env (s.without handle) session user) (login : Login s
      ({ s with
        sessions := s.sessions.insert handle
          { session with auth := .authenticated user.id } }.cacheUser user)) :
    Turns env s handle session input := by
  -- The record is cached before the client is told, so telling it may fail afterwards.
  have absent : Absent ((s.without handle).cacheUser user) handle :=
    @without_absent s handle
  have told : Lands env handle ((s.without handle).cacheUser user)
      { session with auth := .authenticated user.id }
      (finishAuthentication env (s.without handle) session user) := by
    refine .tune absent fun next ok => ?_
    obtain ⟨text, _, queued⟩ := bind_ok ok
    obtain ⟨channel, rfl⟩ := queueResponse_shape queued
    exact ⟨channel, _, _, rfl⟩
  have lands := told.andThen absent fun next changed still =>
    @refreshSnapshot_lands _ _ _ changed still input.instant
  have start : ((s.without handle).cacheUser user).putSession handle
      { session with auth := .authenticated user.id } =
      { s with
        sessions := s.sessions.insert handle
          { session with auth := .authenticated user.id } }.cacheUser user := by
    simp [putSession, cacheUser, without, Table.insert_erase]
  refine .login rfl login ?_
  rw [advanceSession, same, ← start]
  exact lands.1

theorem advanceSession_begun {storage : StorageWorker} {auth : AuthState}
    (same : advanceAuthentication env (s.without handle) session input.utc =
      ({ s.without handle with storage }, .ok { session with auth }))
    (unnamed : ∀ userId, auth ≠ .authenticated userId) (begun : Begun s
      { s with storage, sessions := s.sessions.insert handle { session with auth } }) :
    Turns env s handle session input := by
  have silent : userId { session with auth } = none := by
    cases auth with
    | authenticated userId => exact absurd rfl (unnamed userId)
    | _ => rfl
  rw [Turns, advanceSession, same]
  simp only [continueSession, refreshSnapshot, silent, landSession, without, Table.insert_erase]
  exact .begun rfl begun

theorem advanceSession_quiet (found : s.sessions.lookup handle = some session)
    (same : advanceAuthentication env (s.without handle) session input.utc = first)
    (lands : Lands env handle (s.without handle) session first) :
    Turns env s handle session input :=
  .quiet ((without_putSession found).silent (advanceSession_lands same lands).1)

theorem Lands.stay : Lands env handle (s.without handle) session (s.without handle, .ok session) :=
  ⟨.refl _, rfl⟩

theorem Lands.drop (status : Status) :
    Lands env handle (s.without handle) session (s.without handle, .error status) :=
  .fail without_absent status

theorem advanceCredential_move {digest : String} (input : SessionInput)
    (found : s.sessions.lookup handle = some session)
    (auth : session.auth = .credential digest reply) :
    Turns env s handle session input := by
  have unnamed : session.userId = none := by simp [userId, auth]
  have deny (reason : String) : Lands env handle (s.without handle) session
      (s.without handle, session.queueDenied reason) := .deny without_absent unnamed reason
  have step : advanceAuthentication env (s.without handle) session input.utc =
      advanceCredential (s.without handle) session digest reply := by
    simp only [advanceAuthentication, auth]
  unfold advanceCredential at step
  split at step
  next credential received =>
    split at step
    · exact advanceSession_quiet found step (deny _)
    next valid =>
    simp only [not_or, not_not, Bool.not_eq_true] at valid
    split at step
    · exact advanceSession_quiet found step (Lands.drop _)
    next sent =>
    obtain ⟨rfl, rfl⟩ := get_ok sent
    exact advanceSession_begun step (by simp)
      (.lookedUp found auth (tryRecv_ok.mp received) valid.1 valid.2)
  · exact advanceSession_quiet found step (deny _)
  · exact advanceSession_quiet found step Lands.stay
  · exact advanceSession_quiet found step (Lands.drop _)

/-- A session whose user is looked up. -/
theorem advanceUser_move {userId : String} (input : SessionInput)
    (found : s.sessions.lookup handle = some session) (auth : session.auth = .user userId reply) :
    Turns env s handle session input := by
  have unnamed : session.userId = none := by simp [PolicySession.userId, auth]
  have deny (reason : String) : Lands env handle (s.without handle) session
      (s.without handle, session.queueDenied reason) := .deny without_absent unnamed reason
  have step : advanceAuthentication env (s.without handle) session input.utc =
      advanceUser env (s.without handle) session userId reply input.utc := by
    simp only [advanceAuthentication, auth]
  unfold advanceUser at step
  split at step
  next stored received =>
    split at step
    · exact advanceSession_quiet found step (Lands.drop _)
    next user decoded =>
    split at step
    · exact advanceSession_quiet found step (deny _)
    next valid =>
    simp only [not_or, not_not, Bool.not_eq_true, Bool.not_eq_false'] at valid
    have answered := tryRecv_ok.mp received
    split at step
    · exact advanceSession_quiet found step (deny _)
    next room =>
    have vacant : (s.without handle).sessionLimitReached user = false := by simpa using room
    split at step
    next late =>
      dsimp only at step
      split at step
      · exact advanceSession_quiet found step (Lands.drop _)
      next sent =>
      obtain ⟨rfl, rfl⟩ := put_ok sent
      exact advanceSession_begun step (by simp)
        (.clocked found auth answered decoded valid.1 valid.2 vacant late)
    · exact advanceSession_login step
        (.direct found auth answered decoded valid.1 valid.2 vacant)
  · exact advanceSession_quiet found step (deny _)
  · exact advanceSession_quiet found step Lands.stay
  · exact advanceSession_quiet found step (Lands.drop _)

theorem advanceClock_move {user : UserRecord} (input : SessionInput)
    (found : s.sessions.lookup handle = some session) (auth : session.auth = .clock user reply) :
    Turns env s handle session input := by
  have step : advanceAuthentication env (s.without handle) session input.utc =
      advanceClock env (s.without handle) session user reply := by
    simp only [advanceAuthentication, auth]
  unfold advanceClock at step
  split at step
  next received =>
    exact advanceSession_login step (.confirmed found auth (tryRecv_ok.mp received))
  · exact advanceSession_quiet found step Lands.stay
  · exact advanceSession_quiet found step (Lands.drop _)

theorem advanceSession_move (s : State) (handle : Nat) (input : SessionInput) :
    Move env s (.advanceSession input) [] (s.withSession handle (advanceSession env input)) := by
  unfold withSession
  cases found : s.sessions.lookup handle with
  | none => exact .quiet (.refl s)
  | some session =>
    cases auth : session.auth with
    | waiting | authenticated =>
      exact advanceSession_quiet found (by simp only [advanceAuthentication, auth]) Lands.stay
    | credential => exact advanceCredential_move input found auth
    | user => exact advanceUser_move input found auth
    | clock => exact advanceClock_move input found auth

end Turn

theorem attachSession_move (s : State) (context : Bytes) (instant elsewhere : Nat) :
    Move env s (.attachSession context instant elsewhere) []
      (s.attachSession env context instant elsewhere).2 := by
  have refused : Move env s (.attachSession context instant elsewhere) []
      { s with sessionNext := s.sessionNext + elsewhere + 1 } :=
    .host (.refused (by omega))
  unfold attachSession
  cases decoded : env.decodeSecurity context with
  | none => exact .quiet (.refl s)
  | some =>
    dsimp only
    split
    · exact .quiet (.refl s)
    split
    · exact .quiet (.refl s)
    split
    · exact .quiet (.refl s)
    split
    · exact refused
    cases SessionChannel.new s.options.maxControlFrameBytes with
    | error => exact refused
    | ok =>
      dsimp only
      split
      · exact refused
      · exact .host (.joined (by omega) rfl rfl rfl)

/-- An admitted flow belongs to an authenticated server session. -/
theorem admission_session {utc : Nat} {metadata : FlowMetadata} {identity : FlowIdentity}
    (admitted : s.admission env session metadata utc = .ok (some identity)) :
    ∃ found, s.sessions.lookup session = some found ∧ found.role = .server ∧
      found.auth = .authenticated identity.userId ∧
      identity.credentialDigest = found.credentialDigest ∧
      ∃ user, s.admin.users.lookup identity.userId = some user ∧
        s.flowAvailableAt user utc = true ∧ s.flowLimitReached user = false ∧
        destinationPolicy env s user metadata = .ok identity.sniff := by
  unfold admission at admitted
  split at admitted
  · cases admitted
  obtain ⟨⟨server, userId⟩, authenticated, admitted⟩ := bind_ok admitted
  obtain ⟨found, auth⟩ : s.sessions.lookup session = some server ∧
      server.auth = .authenticated userId := by
    unfold authenticatedSession at authenticated
    split at authenticated
    · cases authenticated
    next found =>
    split at authenticated
    next auth =>
      cases authenticated
      exact ⟨found, auth⟩
    · cases authenticated
  dsimp only at admitted
  split at admitted
  · cases admitted
  next other =>
  split at admitted
  · cases admitted
  next user cached =>
  split at admitted
  · cases admitted
  next available =>
  split at admitted
  · cases admitted
  next sniff decided =>
  cases admitted
  simp only [not_or, Bool.not_eq_true, Bool.not_eq_false'] at available
  refine ⟨server, found, ?_, auth, rfl, user, cached, by simpa using available.1, available.2,
    decided⟩
  cases role : server.role with
  | client => exact absurd role other
  | server => rfl

theorem admitFlow_move (s : State) (session flow : Nat) (metadata : FlowMetadata) (utc : Nat) :
    Move env s (.admitFlow session flow metadata utc) (s.admitObs env session flow metadata utc)
      (s.admitFlow env session metadata utc).2 := by
  unfold admitFlow admitObs
  cases admitted : s.admission env session metadata utc with
  | error => exact .quiet (.refl s)
  | ok decision =>
    cases decision with
    | none => exact .quiet (.refl s)
    | some =>
      obtain ⟨found, present, _⟩ := admission_session admitted
      dsimp only
      rw [pushIdentity, present]
      exact .host (.admitted admitted present)

theorem takeIdentity_cases {t : State} {identity : Option FlowIdentity}
    (taken : s.takeIdentity session = .ok (identity, t)) :
    (identity = none ∧ t = s) ∨
      ∃ found first rest, s.sessions.lookup session = some found ∧ found.role = .server ∧
        found.pendingFlows = first :: rest ∧ identity = some first ∧
        t = { s with
          sessions := s.sessions.insert session { found with pendingFlows := rest } } := by
  unfold takeIdentity at taken
  split at taken
  · cases taken
  next server found =>
  split at taken
  · cases taken
    exact .inl ⟨rfl, rfl⟩
  · cases taken
  next first rest role waiting =>
    cases taken
    exact .inr ⟨server, first, rest, found, role, waiting, rfl, rfl⟩

/-- Attaching a flow of either kind, for any table of flows that it is put into. -/
theorem attachWith_move {flow : Nat} {input : AttachInput}
    {install : State → Nat → Option FlowIdentity → State} (attaches : event.attaches session flow)
    (metered : ∀ found first rest handle, s.sessions.lookup session = some found →
      found.role = .server → found.pendingFlows = first :: rest → s.flowNext ≤ handle →
      Host env s event [.attached session flow first (some handle)]
        (install
          { s with
            sessions := s.sessions.insert session { found with pendingFlows := rest }
            flowNext := handle + 1 } handle (some first))) (free : ∀ handle, s.flowNext ≤ handle →
      Host env s event [] (install { s with flowNext := handle + 1 } handle none)) :
    Move env s event
      (s.attachObs session flow input (s.attachWith session input install).1)
      (s.attachWith session input install).2 := by
  unfold attachWith attachObs
  cases taken : s.takeIdentity session with
  | error => exact .quiet (.refl s)
  | ok result =>
    obtain ⟨identity, t⟩ := result
    have later : s.flowNext ≤ s.flowNext + input.elsewhere := Nat.le_add_right _ _
    rcases takeIdentity_cases taken with ⟨rfl, rfl⟩ | ⟨found, first, rest, present, server,
      waiting, rfl, rfl⟩
    · dsimp only
      split
      · exact .quiet (.refl _)
      split
      · exact .host (.skipped attaches (by omega))
      · exact .host (free _ later)
    · dsimp only
      split
      · next fault _ =>
        have failed : fault.status ≠ .ok := by cases fault <;> simp [AttachFault.status]
        rw [if_neg failed]
        exact .host (.consumed attaches present server waiting le_rfl)
      · split
        · exact .host (.consumed attaches present server waiting (by omega))
        · exact .host (metered found first rest _ present server waiting later)

theorem attachFlow_move (s : State) (session flow : Nat) (input : AttachInput) :
    Move env s (.attachFlow session flow input)
      (s.attachObs session flow input (s.attachFlow session input).1)
      (s.attachFlow session input).2 :=
  attachWith_move ⟨rfl, rfl⟩
    (fun _ _ _ _ present server waiting later =>
      .streamed ⟨rfl, rfl⟩ present server waiting later)
    fun _ later => .unmetered ⟨rfl, rfl⟩ later

theorem attachDatagramFlow_move (s : State) (session flow : Nat) (input : AttachInput) :
    Move env s (.attachDatagramFlow session flow input)
      (s.attachObs session flow input (s.attachDatagramFlow session input).1)
      (s.attachDatagramFlow session input).2 :=
  attachWith_move ⟨rfl, rfl⟩
    (fun _ _ _ _ present server waiting later =>
      .datagrammed ⟨rfl, rfl⟩ present server waiting later)
    fun _ later => .unmeteredDatagram ⟨rfl, rfl⟩ later

end State

/-- The users a quota pass forgets are done with, and none of them has its turn still to come. -/
def QuotaPass.Fits (pass : QuotaPass) (s : State) : Prop :=
  pass.todo.Nodup ∧ ∀ userId ∈ pass.remove, userId ∉ pass.todo ∧
    TrafficIs s userId fun traffic => traffic.failed = true ∨ Settled traffic

/-- The phase agrees with the state it is in. -/
def World.Fits : World → Prop
  | .up (.quota pass) s => pass.Fits s
  | _ => True

/-- Everything a step of the machine can do. -/
inductive Advance (env : Env) : World → Event → List Obs → World → Prop
  | idle (world : World) (event : Event) : Advance env world event [] world
  | started {store : Table Key Value} {options : Options} {at_ sessionNext flowNext : Nat}
      {s : State} :
      State.initializeInstance env options store at_ sessionNext flowNext = .ok s →
      Advance env (.down store) (.start options at_ sessionNext flowNext) [] (.up .idle s)
  | moved {phase next : Phase} {s t : State} {event : Event} {obs : List Obs} :
      Move env s event obs t → Advance env (.up phase s) event obs (.up next t)
  | stopped {pass : QuotaPass} {s t : State} : pass.shutdown = true → Path env s [] t →
      Advance env (.up (.quota pass) s) .endQuota [] (.down t.storage.store)
  | crashed {phase : Phase} {s : State} (pumping : Option (PumpInput × Nat)) :
      Advance env (.up phase s) (.crash pumping) (crashObs s phase pumping)
        (.down s.storage.store)

theorem quotaPass_fits (s t : State) (now : Nat) (order stopped : List String)
    (shutdown : Bool) : (s.quotaPass now order stopped shutdown).Fits t :=
  ⟨Table.nodup_visit (List.nodup_dedup _), by simp [quotaPass]⟩

theorem endQuota_advance {pass : QuotaPass} (fits : pass.Fits s) :
    Advance env (.up (.quota pass) s) .endQuota [] (endQuota s pass) ∧ (endQuota s pass).Fits := by
  have retired : Path env s [] (s.removeTraffic pass.remove) :=
    .single (.retired pass.remove fun userId member => (fits.2 userId member).2)
  unfold endQuota
  dsimp only
  split
  · exact ⟨.moved (.quiet (retired.silent (.single (.cut _ _)))), trivial⟩
  next going =>
  have ends : pass.shutdown = true := by simpa using going
  split
  · exact ⟨.moved (.quiet retired), trivial⟩
  have polled : Path env (s.removeTraffic pass.remove) []
      { s.removeTraffic pass.remove with
        storage := (s.removeTraffic pass.remove).storage.pollShutdown.1 } := by
    rcases (s.removeTraffic pass.remove).storage.pollShutdown_cases with same | asked
    · rw [same]
      exact .refl _
    · rw [asked]
      exact .single .stopping
  split
  · next storage answered =>
    rw [answered] at polled
    exact ⟨.stopped ends (retired.silent polled), trivial⟩
  · next storage result _ answered =>
    rw [answered] at polled
    exact ⟨.moved (.quiet (retired.silent polled)), trivial⟩

theorem idleStep_advance {next : World} {obs : List Obs}
    (steps : idleStep env s event = some (next, obs)) :
    Advance env (.up .idle s) event obs next ∧ next.Fits := by
  cases event with
  | attachSession context instant elsewhere =>
    cases steps
    exact ⟨.moved (s.attachSession_move context instant elsewhere), trivial⟩
  | admitFlow session flow metadata utc =>
    cases steps
    exact ⟨.moved (s.admitFlow_move session flow metadata utc), trivial⟩
  | admitResolved | abandonFlow =>
    cases steps
    exact ⟨.moved (.quiet (.single (.noted _ rfl))), trivial⟩
  | attachFlow session flow input =>
    cases steps
    exact ⟨.moved (s.attachFlow_move session flow input), trivial⟩
  | attachDatagramFlow session flow input =>
    cases steps
    exact ⟨.moved (s.attachDatagramFlow_move session flow input), trivial⟩
  | control input =>
    cases steps
    exact ⟨.moved (s.controlInstance_move input), trivial⟩
  | beginPoll utc =>
    simp only [idleStep] at steps
    split at steps
    · cases steps
      exact ⟨.idle _ _, trivial⟩
    · cases steps
      exact ⟨.moved (.quiet (.single (.observed utc))), quotaPass_fits _ _ _ _ _ _⟩
  | beginShutdown =>
    cases steps
    refine ⟨.moved (.quiet ?_), quotaPass_fits _ _ _ _ _ _⟩
    unfold closeAll
    split
    · exact .refl s
    · exact .single .closed
  | _ => simp [idleStep] at steps

/-- A turn of the quota pass. -/
theorem quotaTurn_advance {pass : QuotaPass} {userId : String} {rest : List String}
    (instant : Nat) (todo : pass.todo = userId :: rest) (fits : pass.Fits s) :
    ∀ stage, stage = s.quotaTurn (userId ∈ pass.active) pass.now instant userId →
      Advance env (.up (.quota pass) s) (.quotaTurn instant) []
        (.up (.quota
          { pass with
            todo := rest
            stopped := if stage.verdict.stop then pass.stopped ++ [userId] else pass.stopped
            remove := if stage.verdict.remove then pass.remove ++ [userId] else pass.remove })
          stage.state) ∧
      QuotaPass.Fits
        { pass with
          todo := rest
          stopped := if stage.verdict.stop then pass.stopped ++ [userId] else pass.stopped
          remove := if stage.verdict.remove then pass.remove ++ [userId] else pass.remove }
        stage.state := by
  rintro stage rfl
  obtain ⟨move, others, removable⟩ :=
    @State.quotaTurn_move env s (userId ∈ pass.active) pass.now instant userId
  obtain ⟨distinct, done⟩ := fits
  rw [todo, List.nodup_cons] at distinct
  refine ⟨.moved move, distinct.2, fun other member => ?_⟩
  have old (kept : other ∈ pass.remove) : other ∉ rest ∧
      TrafficIs (s.quotaTurn (userId ∈ pass.active) pass.now instant userId).state other
        fun traffic => traffic.failed = true ∨ Settled traffic := by
    -- A user that was forgotten earlier has its traffic as it was then.
    obtain ⟨absent, settled⟩ := done other kept
    rw [todo, List.mem_cons, not_or] at absent
    refine ⟨absent.2, fun traffic found => settled traffic ?_⟩
    rwa [others other absent.1] at found
  dsimp only at member
  split at member
  · next removed =>
    rcases List.mem_append.mp member with kept | last
    · exact old kept
    rw [List.mem_singleton] at last
    subst last
    exact ⟨distinct.1, removable removed⟩
  · exact old member

theorem State.pumpFlows_move (s : State) (input : PumpInput) (order : List Nat) :
    Move env s (.pump input order) ((s.pumpFlows input).2.map .pumped) (s.pumpFlows input).1 := by
  obtain ⟨_, _, _, _, _, _, _, _, rest⟩ := (s.pumpFlows_pumps input).rest
  rw [rest]
  exact .pumped rfl rest

theorem busyStep_advance {phase : Phase} {next : World} {obs : List Obs}
    (fits : (World.up phase s).Fits) (steps : busyStep env s phase event = some (next, obs)) :
    Advance env (.up phase s) event obs next ∧ next.Fits := by
  unfold busyStep at steps
  split at steps
  · next pass instant =>
    split at steps
    · simp at steps
    next userId rest todo =>
    cases steps
    exact quotaTurn_advance instant todo fits _ rfl
  · next pass =>
    split at steps
    · cases steps
      exact endQuota_advance fits
    · simp at steps
  · next input order =>
    cases steps
    exact ⟨.moved (s.pumpFlows_move input order), trivial⟩
  · next handle rest input =>
    cases steps
    exact ⟨.moved (.quiet (s.receiveMessages_path handle input)), trivial⟩
  · next handle rest input =>
    cases steps
    exact ⟨.moved (s.advanceSession_move handle input), trivial⟩
  · cases steps
    exact ⟨.moved (.quiet (.single (.cut _ _))), trivial⟩
  · simp at steps

theorem World.step_advance (event : Event) (fits : world.Fits) :
    Advance env world event (world.step env event).2 (world.step env event).1 ∧
      (world.step env event).1.Fits := by
  unfold World.step
  split
  · next store options at_ sessionNext flowNext =>
    cases started : initializeInstance env options store at_ sessionNext flowNext with
    | ok => exact ⟨.started started, trivial⟩
    | error => exact ⟨.idle _ _, trivial⟩
  · exact ⟨.idle _ _, trivial⟩
  · next phase s =>
    rw [receive_eq]
    exact ⟨.moved (.quiet (.single (.received _))), by cases phase <;> exact fits⟩
  · next phase s outcome => exact ⟨.moved (.finished rfl), by cases phase <;> exact fits⟩
  · next phase s pumping => exact ⟨.crashed pumping, trivial⟩
  · next s _ _ _ =>
    cases steps : idleStep env s event with
    | none => exact ⟨.idle _ _, trivial⟩
    | some => exact idleStep_advance steps
  · next phase s _ _ _ _ =>
    cases steps : busyStep env s phase event with
    | none => exact ⟨.idle _ _, fits⟩
    | some => exact busyStep_advance fits steps

/-- The phase fits the state along every run. -/
theorem run_fits (run : (machine env).Run Fresh guard history world) : world.Fits := by
  induction run with
  | start begins => exact begins ▸ trivial
  | step _ _ ih => exact (World.step_advance _ ih).2

/-- Every step from a state of a run is one of the listed advances. -/
theorem run_advance (run : (machine env).Run Fresh guard history world) (event : Event) :
    Advance env world event ((machine env).step world event).2
      ((machine env).step world event).1 :=
  (World.step_advance event (run_fits run)).1

theorem machine_invariant (holds : List Obs → World → Prop) (base : holds [] (.down ∅))
    (preserved : ∀ {history world event obs next},
      (machine env).Run Fresh guard history world → holds history world →
      guard history world event → Advance env world event obs next →
      holds (history ++ obs) next) (run : (machine env).Run Fresh guard history world) :
    holds history world := by
  induction run with
  | start begins => exact begins ▸ base
  | step before admitted ih => exact preserved before ih admitted (run_advance before _)

theorem machine_continues {start : World}
    (run : (machine env).Run Fresh (fun _ _ _ => True) history start)
    (holds : List Obs → World → Prop) (base : holds [] start)
    (preserved : ∀ {after world event obs next},
      (machine env).Run Fresh (fun _ _ _ => True) (history ++ after) world →
      (machine env).Run (· = start) guard after world → holds after world →
      guard after world event → Advance env world event obs next → holds (after ++ obs) next)
    {after : List Obs} (later : (machine env).Run (· = start) guard after world) :
    holds after world := by
  induction later with
  | start begins => exact begins ▸ base
  | step before admitted ih =>
    have whole := run.append before
    exact preserved whole before ih admitted (run_advance whole _)

end Snolc.Policy
