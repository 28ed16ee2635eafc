import Snolc.Policy.Moves

/-! A whole poll as one call, and the steps of the machine that it is made of. -/

namespace Snolc.Policy

/-- What a poll meets outside the instance, from its start to its end. -/
structure PollInput where
  utc : Nat
  now : Nat
  userOrder : List String
  /-- The clock each user's turn reads. -/
  instant : String → Nat
  pump : PumpInput
  sessionOrder : List Nat
  session : Nat → SessionInput

def QuotaPass.after (pass : QuotaPass) (userId : String) (verdict : Verdict) : QuotaPass :=
  { pass with
    todo := pass.todo.tail
    stopped := if verdict.stop then pass.stopped ++ [userId] else pass.stopped
    remove := if verdict.remove then pass.remove ++ [userId] else pass.remove }

namespace State

/-- The turns of the users of a pass. -/
def advanceQuota (instant : String → Nat) :
    List String → QuotaPass → State → QuotaPass × State
  | [], pass, state => (pass, state)
  | userId :: rest, pass, state =>
    let stage := state.quotaTurn (userId ∈ pass.active) pass.now (instant userId) userId
    advanceQuota instant rest (pass.after userId stage.verdict) stage.state

def pollPass (state : State) (input : PollInput) : QuotaPass :=
  let state := state.observeUtc input.utc
  state.quotaPass input.now input.userOrder (state.barredUsers input.utc) false

/-- The first half of a poll: clocks, access, quota and the end of stopped flows. -/
def enforce (state : State) (input : PollInput) : State :=
  let pass := state.pollPass input
  let (pass, state) := advanceQuota input.instant pass.todo pass (state.observeUtc input.utc)
  (state.removeTraffic pass.remove).dropFlows pass.stopped

def pollSessions (env : Env) (session : Nat → SessionInput) (handles : List Nat)
    (state : State) : State :=
  handles.foldl (fun state handle =>
    state.withSession handle (pollPolicySession env (session handle))) state

def pollInstance (env : Env) (state : State) (input : PollInput) : State × List PumpEvent :=
  if state.maintenance then (state, [])
  else
    let (state, events) := (state.enforce input).pumpFlows input.pump
    let handles := Table.visit input.sessionOrder state.sessions.keys
    ((state.pollSessions env input.session handles).dropOrphans, events)

/-- The steps a poll is made of when nothing comes between them. -/
def pollEvents (state : State) (input : PollInput) : List Event :=
  .beginPoll input.utc input.now input.userOrder ::
    if state.maintenance then []
    else
      (state.pollPass input).todo.map (fun userId => .quotaTurn (input.instant userId)) ++
        [.endQuota, .pump input.pump input.sessionOrder] ++
        (Table.visit input.sessionOrder
            ((state.enforce input).pumpFlows input.pump).1.sessions.keys).flatMap
          (fun handle => [.receiveMessages (input.session handle),
            .advanceSession (input.session handle)]) ++
        [.endPoll]

end State

section Execute

variable {env : Env} {history : List Obs}

theorem execute_quotaTurns (instant : String → Nat) {users : List String} {pass : QuotaPass}
    {s : State} (todo : pass.todo = users) :
    (machine env).execute (history, .up (.quota pass) s)
        (users.map fun userId => .quotaTurn (instant userId)) =
      (history, .up (.quota (State.advanceQuota instant users pass s).1)
        (State.advanceQuota instant users pass s).2) ∧
      (State.advanceQuota instant users pass s).1.todo = [] ∧
      (State.advanceQuota instant users pass s).1.shutdown = pass.shutdown := by
  -- A turn takes the first user off the list, so the pass stays quantified over.
  induction users generalizing pass s with
  | nil => exact ⟨rfl, todo, rfl⟩
  | cons userId rest ih =>
    have turn : (machine env).step (.up (.quota pass) s) (.quotaTurn (instant userId)) =
        (.up (.quota (pass.after userId
          (s.quotaTurn (userId ∈ pass.active) pass.now (instant userId) userId).verdict))
          (s.quotaTurn (userId ∈ pass.active) pass.now (instant userId) userId).state, []) := by
      simp [machine, World.step, busyStep, todo, QuotaPass.after]
    rw [List.map_cons, System.execute, turn, List.append_nil]
    exact ih (by rw [QuotaPass.after, todo, List.tail_cons])

theorem State.withSession_halves (s : State) (handle : Nat) (input : SessionInput) :
    (s.withSession handle (receiveMessages env input)).withSession handle
        (advanceSession env input) =
      s.withSession handle (pollPolicySession env input) := by
  unfold pollPolicySession State.withSession
  cases found : s.sessions.lookup handle with
  | none => simp [found]
  | some session =>
    have absent : Absent (s.without handle) handle := State.without_absent
    have kept := (@receiveMessages_lands env handle _ session absent input).2
    dsimp only
    cases received : receiveMessages env input
        { s with sessions := s.sessions.erase handle } session with
    | mk mid result =>
      rw [show receiveMessages env input (s.without handle) session = (mid, result)
        from received] at kept
      change mid.sessions = s.sessions.erase handle at kept
      cases result with
      | error => simp [landSession, continueSession, kept]
      | ok next =>
        have out : (mid.sessions.insert handle next).erase handle = mid.sessions :=
          Table.erase_insert_of_absent next (by rw [kept, Table.erase_erase])
        simp only [landSession, continueSession, AList.lookup_insert, out]

theorem execute_pollSessions (session : Nat → SessionInput) (handles : List Nat) (s : State) :
    (machine env).execute (history, .up (.sessions handles false) s)
        (handles.flatMap fun handle => [.receiveMessages (session handle),
          .advanceSession (session handle)]) =
      (history, .up (.sessions [] false) (s.pollSessions env session handles)) := by
  induction handles generalizing s with
  | nil => rfl
  | cons handle rest ih =>
    have turn : (machine env).execute (history, .up (.sessions (handle :: rest) false) s)
        [.receiveMessages (session handle), .advanceSession (session handle)] =
        (history, .up (.sessions rest false)
          (s.withSession handle (pollPolicySession env (session handle)))) := by
      rw [← State.withSession_halves]
      simp [System.execute, machine, World.step, busyStep]
    rw [List.flatMap_cons, System.execute_append, turn, ih]
    rfl

theorem execute_pump {pass : QuotaPass} {s : State} (done : pass.todo = [])
    (poll : pass.shutdown = false) (input : PumpInput) (order : List Nat) :
    (machine env).execute (history, .up (.quota pass) s) [.endQuota, .pump input order] =
      (history ++ (((s.removeTraffic pass.remove).dropFlows pass.stopped).pumpFlows input).2.map
          .pumped,
        .up (.sessions (Table.visit order
            (((s.removeTraffic pass.remove).dropFlows pass.stopped).pumpFlows
              input).1.sessions.keys) false)
          (((s.removeTraffic pass.remove).dropFlows pass.stopped).pumpFlows input).1) := by
  simp [System.execute, machine, World.step, busyStep, done, endQuota, poll]

/-- The steps of a poll, with nothing between them, are the poll. -/
theorem execute_pollEvents (s : State) (input : PollInput) :
    (machine env).execute (history, .up .idle s) (s.pollEvents input) =
      (history ++ (s.pollInstance env input).2.map .pumped,
        .up .idle (s.pollInstance env input).1) := by
  unfold State.pollEvents State.pollInstance
  by_cases maintenance : s.maintenance = true
  · simp [System.execute, machine, World.step, idleStep, maintenance]
  rw [Bool.not_eq_true] at maintenance
  have begun : (machine env).step (.up .idle s)
      (.beginPoll input.utc input.now input.userOrder) =
      (.up (.quota (s.pollPass input)) (s.observeUtc input.utc), []) := by
    simp [machine, World.step, idleStep, maintenance, State.pollPass]
  obtain ⟨turns, done, poll⟩ := @execute_quotaTurns env history input.instant _
    (s.pollPass input) (s.observeUtc input.utc) rfl
  have enforced : (machine env).execute
      (history, .up (.quota (s.pollPass input)) (s.observeUtc input.utc))
      ((s.pollPass input).todo.map (fun userId => .quotaTurn (input.instant userId)) ++
        [.endQuota, .pump input.pump input.sessionOrder]) =
      (history ++ ((s.enforce input).pumpFlows input.pump).2.map .pumped,
        .up (.sessions (Table.visit input.sessionOrder
          ((s.enforce input).pumpFlows input.pump).1.sessions.keys) false)
          ((s.enforce input).pumpFlows input.pump).1) := by
    rw [System.execute_append, turns, execute_pump done poll, State.enforce]
  simp only [maintenance, Bool.false_eq_true, if_false]
  rw [System.execute, begun, List.append_nil, System.execute_append, System.execute_append,
    enforced, execute_pollSessions]
  simp [System.execute, machine, World.step, busyStep]

end Execute

/-- Storage never fails, and no random name is drawn twice. -/
structure Reliable (history : List Obs) (event : Event) : Prop where
  succeeds : ∀ outcome, event = .finish outcome → outcome = .success
  fresh : ∀ input bytes, event = .control input → input.entropy = some bytes →
    .drew (encodeHex bytes) ∉ history

instance (history : List Obs) (event : Event) : Decidable (Reliable history event) :=
  decidable_of_iff
    ((match event with
      | .finish outcome => decide (outcome = .success)
      | .control input => input.entropy.all fun bytes => history.all fun
        | .drew id => decide (id ≠ encodeHex bytes)
        | _ => true
      | _ => true) = true) <| by
    constructor
    · intro accepted
      refine ⟨?_, ?_⟩
      · rintro outcome rfl
        simpa using accepted
      · rintro input bytes rfl drawn member
        simp only [drawn, Option.all_some, List.all_eq_true] at accepted
        simpa using accepted _ member
    · intro reliable
      cases event with
      | finish outcome => simpa using reliable.succeeds outcome rfl
      | control input =>
        simp only [Option.all_eq_true, List.all_eq_true]
        intro bytes drawn obs member
        cases obs with
        | drew id =>
          refine decide_eq_true fun same => ?_
          exact reliable.fresh input bytes rfl drawn (same ▸ member)
        | _ => rfl
      | _ => rfl

/-- Lines of text. -/
def toml (lines : List String) : Bytes :=
  lines.flatMap fun line => toUtf8 line ++ [10]

/-- A request as it is sent, with the number its SHA-256 digest writes. -/
structure Sample where
  lines : List String
  digest : Nat
  request : ControlRequest

def Sample.call (sample : Sample) (utc : Nat) (entropy : Option Bytes) : Event :=
  .control { request := toml sample.lines, entropy, utc, evict := "" }

/-- The worker executes a command. -/
def worked : List Event :=
  [.receive, .finish .success]

/-- A request is sent, executed and acknowledged. -/
def Sample.issue (sample : Sample) : List Event :=
  sample.call 10 none :: worked ++ [sample.call 10 none]

/-- Thirty-two bytes of a number, the highest first. -/
def digestBytes (value : Nat) : Bytes :=
  (List.range 32).map fun index => UInt8.ofNat (value / 256 ^ (31 - index))

def tomlText (key value : String) : Bytes :=
  toUtf8 key ++ toUtf8 " = \"" ++ toUtf8 value ++ toUtf8 "\"\n"

def tomlNumber (key : String) (value : Nat) : Bytes :=
  toUtf8 key ++ toUtf8 " = " ++ toUtf8 (toString value) ++ [10]

/-- A line of a TOML document with a number, if there is one. -/
def tomlOption (key : String) (value : Option Nat) : Bytes :=
  (value.map (tomlNumber key)).getD []

/-- An answer of the administrative interface in TOML. -/
def tomlResponse : Response → Bytes
  | .mutation revision userId => tomlText "status" "ok" ++ tomlNumber "revision" revision ++
      (userId.map (tomlText "user_id")).getD []
  | .usage userId revision usedBytes limitBytes uploadBytes downloadBytes =>
    tomlText "status" "ok" ++ tomlText "user_id" userId ++ tomlNumber "revision" revision ++
      tomlNumber "used_bytes" usedBytes ++ tomlOption "limit_bytes" limitBytes ++
      tomlNumber "upload_bytes" uploadBytes ++ tomlNumber "download_bytes" downloadBytes
  | .sessions handles => tomlText "status" "ok" ++ toUtf8 "sessions = [" ++
      ((handles.map fun handle => toUtf8 (toString handle)).intersperse (toUtf8 ", ")).flatten ++
      toUtf8 "]\n"
  | .backup destination => tomlText "status" "ok" ++ tomlText "destination" destination

/-- A status message in TOML. -/
def tomlStatus (status : PolicyStatus) : Bytes :=
  tomlText "status" status.status ++ tomlText "server_id" status.serverId ++
    tomlText "user_id" status.userId ++ tomlNumber "used_bytes" status.usedBytes ++
    tomlOption "limit_bytes" status.limitBytes ++
    tomlOption "upload_bytes_per_second" status.uploadBytesPerSecond ++
    tomlOption "download_bytes_per_second" status.downloadBytesPerSecond ++
    tomlOption "expires_at" status.expiresAt ++ tomlNumber "revision" status.revision ++
    tomlText "reason" status.reason

namespace Deployment

/-- Sixteen random bytes. -/
def entropy : Bytes :=
  (List.range 16).map UInt8.ofNat

def firstUser : String :=
  "000102030405060708090a0b0c0d0e0f"

/-- Sixteen other random bytes. -/
def otherEntropy : Bytes :=
  (List.range 16).map fun index => UInt8.ofNat (index + 16)

def secondUser : String :=
  "101112131415161718191a1b1c1d1e1f"

/-- The credential of the user, in hexadecimal. -/
def credential : String :=
  "0000000000000000000000000000000000000000000000000000000000000000"

def credentialSha256 : String :=
  "66687aadf862bd776c8fc18b8e9f8e20089714856ee233b3902a591d0d5f2925"

/-- The message with which a client presents the credential. -/
def authLines : List String :=
  ["method = \"auth\"",
    "credential = \"0000000000000000000000000000000000000000000000000000000000000000\""]

/-- The security of a control stream to a server. -/
def securityLines : List String :=
  ["role = \"server\"", "confidentiality = true", "integrity = true",
    "peer_authenticated = false"]

/-- The settings of the user. -/
def spec : UserSpec where
  status := .enabled
  expiration := .atUtc 100
  quota := .limited 1000
  uploadRate := .unlimited
  downloadRate := .unlimited
  combinedRate := .unlimited
  burstBytes := 65507
  maxSessions := .limited 2
  maxFlows := .unlimited
  weeklyAccess := .unlimited
  weight := 1
  group := "default"
  ruleProfile := "default"

/-- The settings of the user, as a request has them. -/
def specLines : List String :=
  ["[user]", "status = \"enabled\"", "burst_bytes = 65507", "weight = 1", "group = \"default\"",
    "rule_profile = \"default\"", "[user.expiration]", "mode = \"at-utc\"", "unix_seconds = 100",
    "[user.quota]", "mode = \"limited\"", "bytes = 1000", "[user.upload_rate]",
    "mode = \"unlimited\"", "[user.download_rate]", "mode = \"unlimited\"",
    "[user.combined_rate]", "mode = \"unlimited\"", "[user.max_sessions]", "mode = \"limited\"",
    "count = 2", "[user.max_flows]", "mode = \"unlimited\"", "[user.weekly_access]",
    "mode = \"unlimited\""]

/-- The request that creates the user. -/
def createUser : Sample where
  lines := "method = \"user.create\"" :: "client_id = \"panel\"" :: "seq = 1" :: specLines
  digest := 0x80dce8c6d1332d4f3d187c1974872a7b171132fa31d100fa2817700be8cb1010
  request := .userCreate "panel" 1 spec

/-- The request that gives the user its credential. -/
def addCredential : Sample where
  lines :=
    ["method = \"credential.add\"", "client_id = \"panel\"", "seq = 2",
      "user_id = \"000102030405060708090a0b0c0d0e0f\"",
      "credential_sha256 = \"66687aadf862bd776c8fc18b8e9f8e20089714856ee233b3902a591d0d5f2925\""]
  digest := 0xe0cbf43df84d983ab105f9bf9dfb729e66378194490c756c1ed39224e60fe7a2
  request := .credentialAdd "panel" 2 firstUser credentialSha256

/-- The request that gives the user five hundred bytes more. -/
def addQuota : Sample where
  lines :=
    ["method = \"quota.add\"", "client_id = \"panel\"", "seq = 3",
      "user_id = \"000102030405060708090a0b0c0d0e0f\"", "bytes = 500"]
  digest := 0x611f12b39cfe1303a1f379187ba254bb41556f9beb0d4183c04be1220c16aaa8
  request := .quotaAdd "panel" 3 firstUser 500

def disableUser : Sample where
  lines :=
    ["method = \"user.disable\"", "client_id = \"panel\"", "seq = 3",
      "user_id = \"000102030405060708090a0b0c0d0e0f\"", "expected_revision = 1"]
  digest := 0xde811a657b6e39c34b6feb24327b384f7b8dbe3df46b08a62d132c47ad6eb0d0
  request := .userDisable "panel" 3 firstUser 1

/-- The request that creates one more user. -/
def createOther : Sample where
  lines := "method = \"user.create\"" :: "client_id = \"panel\"" :: "seq = 3" :: specLines
  digest := 0xfbc8d228f9da14656861cb339c359d113bdb18573349db39d3697c8074f60737
  request := .userCreate "panel" 3 spec

/-- The text of rules that deny everything. -/
def denyAll : String :=
  "terminal = \"deny\"\nentries = []\n"

/-- The text of rules that allow everything. -/
def allowAll : String :=
  "terminal = \"allow\"\nentries = []\n"

variable (samples : List Sample)

/-- The libraries, as far as they are asked for these requests and the ones above. -/
def libraries : Env where
  decodeControl input :=
    ((createUser :: addCredential :: samples).find? fun sample => toml sample.lines = input).map
      (·.request)
  decodeRules text :=
    if text = denyAll then some ⟨.deny, []⟩
    else if text = allowAll then some ⟨.allow, []⟩
    else none
  decodeClient input := if toUtf8 input = toml authLines then some (.auth credential) else none
  decodeStatus _ := none
  decodeSecurity input :=
    if input = toml securityLines then some ⟨.server, true, true, false, none⟩ else none
  sha256 input :=
    if input = List.replicate 32 0 then (decodePairs (toUtf8 credentialSha256)).toOption.getD []
    else
      (((createUser :: addCredential :: samples).find? fun sample =>
        toml sample.lines = input).map fun sample => digestBytes sample.digest).getD []
  parseIp _ := none
  environment _ := none
  encodeResponse response := some (tomlResponse response)
  encodeStatus status := fromUtf8 (tomlStatus status)

/-- The options of the configuration template. -/
def options : Options where
  serverId := "node-1"
  maxCachedUsers := 256
  maxAdminClients := 16
  maxControlFrameBytes := 16384
  statusIntervalMs := 1000
  controlGraceMs := 10000
  sniffBytes := 16384
  sniffTimeoutMs := 2000
  onUnknownProtocol := .allow
  checkpointIntervalMs := 5000
  storage := ⟨4194304, 134217728, 64, 1048576, 5⟩
  globalRate := .unlimited
  rules := ⟨.allow, []⟩
  client := none

/-- An instance starts, and the user and its credential are created. -/
def setup (options : Options) : List Event :=
  .start options 0 1 1 :: createUser.call 10 (some entropy) :: worked ++
    [createUser.call 10 none, addCredential.call 10 none] ++ worked ++ addCredential.issue

/-- One more user is created. -/
def another : List Event :=
  createOther.call 10 (some otherEntropy) :: worked ++ [createOther.call 10 none]

def connect : Event :=
  .attachSession (toml securityLines) 0 0

/-- Nothing arrives for a session. -/
def silent (utc : Nat) : SessionInput :=
  ⟨⟨.pending, .pending⟩, 0, utc⟩

/-- A client presents the credential. -/
def present (utc : Nat) : SessionInput :=
  ⟨⟨.bytes (toBeU32 (toml authLines).length ++ toml authLines), .pending⟩, 0, utc⟩

/-- Nothing moves. -/
def still : PumpInput where
  instant := 0
  streamOrder := []
  streams _ := ⟨[], 0, .pending, .pending, .pending⟩
  datagramOrder := []
  datagrams _ := ⟨.pending, none, .pending⟩

/-- A poll up to the turns of the sessions, with a number of users' turns. -/
def beginPoll (utc users : Nat) (pump : PumpInput) : List Event :=
  .beginPoll utc 0 [] :: List.replicate users (.quotaTurn 0) ++ [.endQuota, .pump pump []]

def endPoll (inputs : List SessionInput) : List Event :=
  inputs.flatMap (fun input => [.receiveMessages input, .advanceSession input]) ++ [.endPoll]

/-- A poll in which nothing moves, with a number of users' turns and the turns of sessions. -/
def poll (users : Nat) (inputs : List SessionInput) : List Event :=
  beginPoll 20 users still ++ endPoll inputs

/-- The first session presents the credential, and the record of its user is read. -/
def presented : List Event :=
  connect :: poll 0 [present 20] ++ worked ++ poll 0 [silent 20] ++ worked

/-- The first session proves to be the user, whose clock is written. -/
def login : List Event :=
  presented ++ poll 0 [silent 20] ++ worked ++ poll 0 [silent 20]

/-- A flow to an address that every rule allows. -/
def metadata : FlowMetadata :=
  ⟨.ipv4, [192, 0, 2, 1], 22⟩

/-- A flow of the first session is admitted and attached, and its user draws credit. -/
def flow : List Event :=
  [.admitFlow 1 1 metadata 20, .attachFlow 1 1 ⟨none, 0, 0⟩] ++ poll 1 [silent 20] ++ worked

/-- Streams that move what they are asked to. -/
def moving (upload download : Pumped PumpReport) : PumpInput :=
  { still with streams _ := ⟨[], 0, .pending, upload, download⟩ }

/-- What a run of events from the beginning leads to. -/
def reached (events : List Event) : List Obs × World :=
  (machine (libraries samples)).execute ([], .down ∅) events

variable {guard : List Obs → World → Event → Prop}

/-- Events that a guard admits from the beginning are a run. -/
theorem reached_run (events : List Event)
    [∀ history world event, Decidable (guard history world event)]
    (admitted : (machine (libraries samples)).admits guard ([], .down ∅) events = true) :
    (machine (libraries samples)).Run Fresh guard (reached samples events).1
      (reached samples events).2 :=
  .reached (show Fresh _ from rfl) admitted

/-- What a run of events from a world leads to. -/
def resumed (world : World) (events : List Event) : List Obs × World :=
  (machine (libraries samples)).execute ([], world) events

/-- Events that a guard admits from a world are a run from there. -/
theorem resumed_run (world : World) (events : List Event)
    [∀ history world event, Decidable (guard history world event)]
    (admitted : (machine (libraries samples)).admits guard ([], world) events = true) :
    (machine (libraries samples)).Run (· = world) guard (resumed samples world events).1
      (resumed samples world events).2 := by
  have begins : (machine (libraries samples)).Run (· = world) guard [] world := .start rfl
  exact begins.replay admitted

end Deployment

end Snolc.Policy
