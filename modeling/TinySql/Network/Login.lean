import TinySql.Auth.Acceptance
import TinySql.Network.Chunking
import TinySql.Protocol.PacketRoundTrip

/-!
# A login from end to end

A client reads the challenge from the greeting, answers it with its password, and sends the answer
in any chunks. What the server makes of it depends on the password alone.
-/

namespace TinySql
open Wire Buffer Packet CapabilityFlags TcpConnection

/-! ## The challenge in the greeting -/

namespace HandshakeV10Packet
open HandshakeResponse41Packet (optionalBytes reads_reserved)

/-- The array with these bytes from position `i` on. -/
def overwrite : Nat → Bytes → Vector UInt8 20 → Vector UInt8 20
  | _, [], data => data
  | i, byte :: rest, data => overwrite (i + 1) rest (data.setIfInBounds i byte)

theorem reads_overwrite (bytes : Bytes) (i : Nat) (data : Vector UInt8 20) :
    Reads (challengeField bytes.length i data) bytes (overwrite i bytes data) := by
  induction bytes generalizing i data with
  | nil => exact Reads.pure data
  | cons byte rest ih => exact (reads_uint8 byte).bind (ih (i + 1) (data.setIfInBounds i byte))

theorem getElem?_overwrite (bytes : Bytes) (i j : Nat) (data : Vector UInt8 20) (inside : j < 20) :
    (overwrite i bytes data)[j]? = if i ≤ j ∧ j < i + bytes.length then bytes[j - i]? else data[j]? := by
  induction bytes generalizing i data with
  | nil =>
      rw [overwrite, if_neg]
      simp only [List.length_nil]
      omega
  | cons byte rest ih =>
      rw [overwrite, ih, List.length_cons, Vector.getElem?_setIfInBounds]
      rcases Nat.lt_trichotomy i j with below | rfl | above
      · have later : j - i = (j - (i + 1)) + 1 := by omega
        rw [later, List.getElem?_cons_succ, if_neg (Nat.ne_of_lt below)]
        split_ifs <;> first | rfl | omega
      · simp [inside]
      · rw [if_neg (by omega), if_neg (by omega), if_neg (by omega)]

theorem overwrite_parts (challenge data : Vector UInt8 20) :
    overwrite 8 (challenge.toList.drop 8) (overwrite 0 (challenge.toList.take 8) data) = challenge := by
  apply Vector.ext
  intro j inside
  apply Option.some_inj.mp
  rw [← Vector.getElem?_eq_getElem inside, ← Vector.getElem?_eq_getElem inside,
    getElem?_overwrite _ _ _ _ inside, getElem?_overwrite _ _ _ _ inside]
  simp only [List.length_drop, List.length_take, Vector.length_toList]
  by_cases first : j < 8
  · rw [if_neg (by omega), if_pos (by omega)]
    simp [first]
  · rw [if_pos (by omega)]
    simp [show 8 + (j - 8) = j by omega]

theorem reads_greeting (self p : HandshakeV10Packet) (clean : 0 ∉ p.serverVersion) :
    Reads self.format (p.front ++ optionalBytes p.capabilityFlags CLIENT_PLUGIN_AUTH [])
      { p with authPluginName := if hasFlag p.capabilityFlags CLIENT_PLUGIN_AUTH then []
        else self.authPluginName } := by
  have word {n : Nat} (small : n < 2 ^ 16) : Reads (UInt16.ofNat <$> uint 2) (le 2 n) (UInt16.ofNat n) :=
    (reads_uint 2 n small).map UInt16.ofNat
  have flags := p.capabilityFlags.toNat_lt
  have first := reads_overwrite (p.authPluginData.toList.take 8) 0 self.authPluginData
  have second := reads_overwrite (p.authPluginData.toList.drop 8) 8
    (overwrite 0 (p.authPluginData.toList.take 8) self.authPluginData)
  rw [overwrite_parts] at second
  simp only [List.length_take, List.length_drop, Vector.length_toList] at first second
  rw [← List.append_nil (p.front ++ _)]
  simp only [front, List.append_assoc]
  rw [← List.append_assoc p.serverVersion]
  apply (reads_uint8 p.protocolVersion).bind
  apply (reads_untilZero p.serverVersion clean).bind
  apply (reads_uint32 p.connectionId).bind
  apply first.bind
  apply (reads_uint8 0).bind
  apply (word (Nat.mod_lt _ (by decide))).bind
  apply (reads_uint8 p.characterSet).bind
  apply (reads_uint16 p.statusFlags).bind
  apply (word (by omega)).bind
  apply (reads_uint8 21).bind
  apply (reads_reserved 10).bind
  apply second.bind
  rw [join_flags]
  refine Reads.bind (a := if hasFlag p.capabilityFlags CLIENT_PLUGIN_AUTH then []
      else self.authPluginName) ?_ (Reads.pure _)
  unfold optionalField optionalBytes
  split_ifs
  · exact reads_untilZero [] (by simp)
  · exact Reads.pure _

/-- A client gets every field of the greeting but the name of the plugin. -/
theorem decode_greeting (self p : HandshakeV10Packet) (clean : 0 ∉ p.serverVersion)
    (sequenceId : UInt8) {b : Buffer}
    (shown : b.readable = (p.encode sequenceId Buffer.empty).readable) :
    ∃ b', self.decode.run b = .ok (some { p with
      authPluginName := if hasFlag p.capabilityFlags CLIENT_PLUGIN_AUTH then []
        else self.authPluginName }) b' := by
  have layout : p.front ++ [0] ++ optionalBytes p.capabilityFlags CLIENT_PLUGIN_AUTH p.authPluginName =
      p.front ++ optionalBytes p.capabilityFlags CLIENT_PLUGIN_AUTH [] ++ p.leftover := by
    unfold optionalBytes leftover
    split_ifs <;> simp
  rw [(p.encode_sound sequenceId Sound.empty).readable, List.nil_append, layout] at shown
  have implements := (readFields_implements self).map some
  obtain ⟨b', ran, -⟩ := readPacket_reads (fun _ => implements)
    (shown.trans (List.append_nil _).symm) (List.append_nil _)
    ((reads_greeting self p clean).map some)
  exact ⟨b', ran⟩

end HandshakeV10Packet

/-! ## The answer of the server -/

section Server
variable {sha1 : Bytes → Vector UInt8 20}

theorem sendResponse_run {response : Buffer} {bytes : Bytes} (sound : Sound response bytes)
    (more : bytes ≠ []) (e : Exec) : (sendResponse response).run e =
      .ok () { e with events := e.events ++ [.send bytes] } := by
  have some : 0 < response.readableBytes := by
    rw [← readable_length, sound.readable]
    exact List.length_pos_iff.mpr more
  rw [sendResponse, if_pos some, sound.readable, emit_run]

theorem packet_ne_nil (sequenceId : UInt8) (payload : Bytes) : packet sequenceId payload ≠ [] := by
  simp [packet, le]

def acceptedLogin (r : HandshakeResponse41Packet) (e : Exec) : Exec :=
  { e with
    session := acceptedSession e.session r
    events := e.events ++ [.authenticate r.username r.authResponse e.session.authPluginData true,
      .send (packet 2 (okPacket 0 []).payload)] }

def refusedLogin (r : HandshakeResponse41Packet) (e : Exec) : Exec :=
  { e with events := e.events ++
    [.authenticate r.username r.authResponse e.session.authPluginData false,
      .send (packet 2 (accessDenied r.username).payload)] }

theorem finishAuthentication_run (r : HandshakeResponse41Packet) (e : Exec) :
    (finishAuthentication sha1 r).run e =
      if Authenticator.authenticate sha1 r.username r.authResponse e.session.authPluginData then
        .ok true (acceptedLogin r e)
      else .ok false (refusedLogin r e) := by
  have accepted (e : Exec) := sendResponse_run
    ((okPacket 0 []).encode_sound 2 Sound.empty) (packet_ne_nil _ _) e
  have refused (e : Exec) := sendResponse_run
    ((accessDenied r.username).encode_sound 2 Sound.empty) (packet_ne_nil _ _) e
  cases verdict : Authenticator.authenticate sha1 r.username r.authResponse
      e.session.authPluginData with
  | false => simp [finishAuthentication, verdict, refused, refusedLogin]
  | true =>
      by_cases named : r.database = []
      · simp [finishAuthentication, verdict, accepted, acceptedLogin, acceptedSession, named]
      · simp [finishAuthentication, verdict, accepted, acceptedLogin, acceptedSession, named]

/-- A single packet is in time in whatever chunks it comes. -/
theorem timely_single {p : ClientPacket} {phase : Phase} {room : Nat} {pending : Bytes}
    {chunks : List Bytes} (some : ∀ chunk ∈ chunks, chunk ≠ [])
    (split : pending ++ chunks.flatten = p.bytes) (missing : pending.length < p.bytes.length)
    (fits : p.bytes.length ≤ room + pending.length) : Timely phase room [p] pending chunks := by
  induction chunks generalizing room pending with
  | nil =>
      rw [List.flatten_nil, List.append_nil] at split
      rw [split] at missing
      exact absurd missing (Nat.lt_irrefl _)
  | cons chunk rest ih =>
      obtain ⟨nonempty, others⟩ := List.forall_mem_cons.mp some
      rw [List.flatten_cons, ← List.append_assoc] at split
      have length := congrArg List.length split
      simp only [List.length_append] at length
      by_cases short : (pending ++ chunk).length < p.bytes.length
      · refine .wait ?_ short (ih others split short ?_)
        · omega
        · rw [List.length_append]
          omega
      · rw [List.length_append] at short
        have last : rest = [] := by
          cases rest with
          | nil => rfl
          | cons next rest =>
              have more := List.length_pos_iff.mpr (others next List.mem_cons_self)
              simp only [List.flatten_cons, List.length_append] at length
              omega
        refine .last ?_ ?_ ?_ (.inr ⟨rfl, last⟩)
        · omega
        · rw [List.length_append]
          omega
        · subst last
          intro _
          rw [← split, List.flatten_nil, List.append_nil]

variable {r : HandshakeResponse41Packet} {sequenceId : UInt8} {chunks : List Bytes}
  {p : ClientPacket}

/-- In whatever chunks a response to the greeting comes, it is served as if it had come at once. -/
theorem serve_chunks (fields : (handshakeFields {}).run p.payload = Option.some (r, []))
    (small : p.bytes.length ≤ 4096) (some : ∀ chunk ∈ chunks, chunk ≠ [])
    (split : chunks.flatten = p.bytes) (connectionId : UInt32) (storage : StorageEngine)
    (challenge : Vector UInt8 20) :
    Same (serve sha1 chunks (newTcpConnection connectionId storage challenge))
      (serve sha1 [p.bytes] (newTcpConnection connectionId storage challenge)) := by
  have length : p.bytes.length = 4 + p.payload.length := length_packet _ _
  have timely : Timely (.login (Authenticator.authenticate sha1 r.username r.authResponse challenge))
      4096 [p] [] chunks := by
    apply timely_single some split
    · rw [List.length_nil]
      omega
    · exact small
  have start : InStep sha1
      (.login (Authenticator.authenticate sha1 r.username r.authResponse challenge)) 4096 [p] []
      (newTcpConnection connectionId storage challenge)
      (newTcpConnection connectionId storage challenge) := by
    refine ⟨⟨rfl, rfl⟩, rfl, ?_, empty_received, rfl, empty_received, rfl⟩
    rintro p ⟨⟩
    exact ⟨rfl, r, fields, rfl⟩
  apply timely.serve start some
  rw [List.nil_append, split]
  simp [stream]

theorem serve_whole (fields : (handshakeFields {}).run p.payload = some (r, []))
    (small : p.bytes.length ≤ 4096) (connectionId : UInt32) (storage : StorageEngine)
    (challenge : Vector UInt8 20) :
    let e := greeted connectionId storage challenge
    let conn := serve sha1 [p.bytes] (newTcpConnection connectionId storage challenge)
    if Authenticator.authenticate sha1 r.username r.authResponse challenge then
      conn.context.exec = acceptedLogin r e ∧ conn.connected = true
    else conn.context.exec = refusedLogin r e ∧ conn.connected = false := by
  intro e conn
  have one : conn = serve sha1 [] (messageCallback sha1 ⟨Buffer.empty.readFromFd p.bytes, e⟩) :=
    serve_cons rfl (packet_ne_nil _ _) []
  obtain ⟨-, shown⟩ := @Received.readFromFd _ _ empty_received p.bytes small
  have shown : (Buffer.empty.readFromFd p.bytes).readable = p.bytes ++ [] := by
    rw [shown, List.append_nil]
    rfl
  have state : e.session.state = .handshakeSent := rfl
  have drawn : e.session.authPluginData = challenge := rfl
  have finish := @finishAuthentication_run sha1 r e
  rw [drawn] at finish
  rw [one, serve, List.foldl_nil]
  clear_value e
  split
  · rename_i granted
    rw [if_pos granted] at finish
    rw [messageCallback_login (p := p) state fields finish shown]
    exact ⟨rfl, rfl⟩
  · rename_i denied
    rw [if_neg denied] at finish
    rw [messageCallback_login (p := p) state fields finish shown]
    exact ⟨rfl, rfl⟩

theorem serve_login (wellFormed : r.WellFormed) (small : r.payload.length + 4 ≤ 4096)
    (some : ∀ chunk ∈ chunks, chunk ≠ [])
    (split : chunks.flatten = (r.encode sequenceId Buffer.empty).readable) (connectionId : UInt32)
    (storage : StorageEngine) (challenge : Vector UInt8 20) :
    let e := greeted connectionId storage challenge
    let conn := serve sha1 chunks (newTcpConnection connectionId storage challenge)
    if Authenticator.authenticate sha1 r.username r.authResponse challenge then
      conn.context.exec = acceptedLogin r e ∧ conn.connected = true
    else conn.context.exec = refusedLogin r e ∧ conn.connected = false := by
  intro e conn
  have short : r.payload.length < 2 ^ 24 := by omega
  let p : ClientPacket := ⟨sequenceId, r.payload, short⟩
  have bytes : chunks.flatten = p.bytes := by
    rw [split, (r.encode_sound sequenceId Sound.empty).readable]
    rfl
  have fields : (handshakeFields {}).run p.payload = Option.some (r, []) := by
    have reads := r.reads_payload wellFormed short []
    rwa [List.append_nil] at reads
  have length : p.bytes.length = 4 + r.payload.length := length_packet _ _
  have fits : p.bytes.length ≤ 4096 := by omega
  obtain ⟨exec, connected⟩ : Same conn _ :=
    serve_chunks fields fits some bytes connectionId storage challenge
  rw [exec, connected]
  exact serve_whole fields fits connectionId storage challenge

end Server

/-! ## From the greeting to the answer -/

open Authenticator

section Answer
variable {sha1 : Bytes → Vector UInt8 20} {r : HandshakeResponse41Packet} {greeting : Bytes}
  {conn : TcpConnection} {challenge : Vector UInt8 20} {password username : Bytes}

/-- The client is in as this user, and has been told so by an OK packet that it can read. -/
structure LoggedIn (r : HandshakeResponse41Packet) (conn : TcpConnection) : Prop where
  connected : conn.connected = true
  state : conn.context.exec.session.state = .authenticated
  username : conn.context.exec.session.username = r.username
  currentDatabase : conn.context.exec.session.currentDatabase = r.database
  reply : ∃ reply b', conn.context.exec.events.getLast? = some (.send reply) ∧
    OkPacket.new.decode.run (Buffer.ofBytes reply) = .ok (some (okPacket 0 [])) b'

/-- The connection has ended, and the last that the client can read is why. -/
structure LoginRefused (r : HandshakeResponse41Packet) (conn : TcpConnection) : Prop where
  connected : conn.connected = false
  state : conn.context.exec.session.state = .handshakeSent
  reply : ∃ reply b', conn.context.exec.events.getLast? = some (.send reply) ∧
    ErrPacket.new.decode.run (Buffer.ofBytes reply) = .ok (some (accessDenied r.username)) b'

theorem LoggedIn.not_refused (loggedIn : LoggedIn r conn) : ¬ LoginRefused r conn := fun refused =>
  Bool.false_ne_true (refused.connected.symm.trans loggedIn.connected)

theorem readable_ofBytes (bytes : Bytes) : (Buffer.ofBytes bytes).readable = bytes := by
  simp [Buffer.readable, Buffer.memory, Buffer.ofBytes, Buffer.readableBytes]

theorem reply_read {α : Type} {decode : BufferM (Option α)} {encode : UInt8 → Buffer → Buffer}
    {p : α} {payload : Bytes} (trips : RoundTrips decode encode p)
    (writes : Sound (encode 2 Buffer.empty) ([] ++ packet 2 payload)) :
    ∃ b', decode.run (Buffer.ofBytes (packet 2 payload)) = .ok (some p) b' := by
  obtain ⟨b', ran, -⟩ := trips 2 [] (Buffer.ofBytes (packet 2 payload)) (by
    rw [readable_ofBytes, writes.readable, List.nil_append, List.append_nil])
  exact ⟨b', ran⟩

/-- The server finds the password under the response that a client makes of it. -/
theorem authenticate_computed (known : passwordOf username = some password) :
    authenticate sha1 username (computeAuthResponse sha1 password challenge) challenge = true := by
  have stored : getPasswordHash sha1 username = doubleSha1 sha1 password := by
    rw [getPasswordHash_eq, known]
    rfl
  by_cases empty : password = []
  · simp [authenticate, stored, doubleSha1_ne_nil, computeAuthResponse, empty]
  · have size : (computeAuthResponse sha1 password challenge).length = 20 := by
      rw [computeAuthResponse, if_neg empty, length_xorBytes (by simp), Vector.length_toList]
    have some : computeAuthResponse sha1 password challenge ≠ [] := by
      rintro none
      rw [none] at size
      cases size
    rw [authenticate, stored, if_neg (doubleSha1_ne_nil password), if_neg some,
      if_neg (not_not_intro size), computeAuthResponse, if_neg empty]
    dsimp only
    rw [← doubleSha1, xorBytes_xorBytes (by simp), decide_eq_true_eq, doubleSha1]

theorem length_accessDenied (username : Bytes) :
    (accessDenied username).payload.length = username.length + 34 := by
  simp [ErrPacket.payload, accessDenied, ErrPacket.create, length_fiveBytes, le, ascii]
  omega

theorem username_lt (small : r.payload.length + 4 ≤ 4096) : r.username.length < 4096 := by
  simp only [HandshakeResponse41Packet.payload, List.length_append] at small
  omega

theorem loggedIn_of_served {connectionId : UInt32} {storage : StorageEngine}
    (connected : conn.connected = true)
    (exec : conn.context.exec = acceptedLogin r (greeted connectionId storage challenge)) :
    LoggedIn r conn := by
  refine ⟨connected, by rw [exec]; rfl, by rw [exec]; rfl, ?_, ?_⟩
  · have database : conn.context.exec.session.currentDatabase =
        if r.database ≠ [] then r.database else [] := by
      rw [exec]
      rfl
    rw [database]
    split_ifs with named
    · rfl
    · exact (not_not.mp named).symm
  · obtain ⟨b', ran⟩ := reply_read ((okPacket 0 []).roundTrips (by decide))
      ((okPacket 0 []).encode_sound 2 Sound.empty)
    refine ⟨_, b', ?_, ran⟩
    rw [exec, acceptedLogin, List.getLast?_append]
    rfl

theorem refused_of_served (small : r.payload.length + 4 ≤ 4096) {connectionId : UInt32}
    {storage : StorageEngine} (connected : conn.connected = false)
    (exec : conn.context.exec = refusedLogin r (greeted connectionId storage challenge)) :
    LoginRefused r conn := by
  refine ⟨connected, by rw [exec]; rfl, ?_⟩
  have short : (accessDenied r.username).payload.length < 2 ^ 24 := by
    have := username_lt small
    rw [length_accessDenied]
    omega
  obtain ⟨b', ran⟩ := reply_read (ErrPacket.roundTrips _ _ _ short)
    ((accessDenied r.username).encode_sound 2 Sound.empty)
  refine ⟨_, b', ?_, ran⟩
  rw [exec, refusedLogin, List.getLast?_append]
  rfl

end Answer

/-- A client that finds the challenge in the greeting and answers it with its password is let in,
and reads an OK packet; where the response does not pass for the challenge that the client was
given, it reads that access is denied, and the connection ends. This is so in whatever chunks the
response arrives. -/
theorem login_end_to_end (sha1 : Bytes → Vector UInt8 20) (connectionId : UInt32)
    (storage : StorageEngine) (challenge : Vector UInt8 20) (client : HandshakeV10Packet)
    (r : HandshakeResponse41Packet) (wellFormed : r.WellFormed)
    (small : r.payload.length + 4 ≤ 4096) (sequenceId : UInt8) (chunks : List Bytes)
    (some : ∀ chunk ∈ chunks, chunk ≠ [])
    (split : chunks.flatten = (r.encode sequenceId Buffer.empty).readable) :
    ∃ greeting q b', (greeted connectionId storage challenge).events = [.send greeting] ∧
      client.decode.run (Buffer.ofBytes greeting) = .ok (Option.some q) b' ∧
      q.connectionId = connectionId ∧ q.authPluginData = challenge ∧
      let conn := serve sha1 chunks (newTcpConnection connectionId storage challenge)
      (∀ password, passwordOf r.username = Option.some password →
        r.authResponse = computeAuthResponse sha1 password q.authPluginData → LoggedIn r conn) ∧
      (authenticate sha1 r.username r.authResponse q.authPluginData = false → LoginRefused r conn) := by
  let handshake : HandshakeV10Packet := { connectionId := connectionId, authPluginData := challenge }
  have clean : 0 ∉ ascii "1.0.0-tiny-sql" := by decide
  obtain ⟨b', ran⟩ := client.decode_greeting handshake clean 0
    (readable_ofBytes (handshake.encode 0 Buffer.empty).readable)
  refine ⟨(handshake.encode 0 Buffer.empty).readable, _, b', rfl, ran, rfl, rfl, ?_⟩
  have served := @serve_login sha1 _ _ _ wellFormed small some split connectionId storage challenge
  intro conn
  constructor
  · intro password known answered
    have granted : authenticate sha1 r.username r.authResponse challenge = true := by
      rw [answered]
      exact authenticate_computed known
    obtain ⟨exec, connected⟩ := (if_pos granted).mp served
    exact loggedIn_of_served connected exec
  · intro denied
    have denied : ¬ authenticate sha1 r.username r.authResponse challenge = true :=
      Bool.eq_false_iff.mp denied
    obtain ⟨exec, connected⟩ := (if_neg denied).mp served
    exact refused_of_served small connected exec

def testLogin : HandshakeResponse41Packet :=
  { loginOfTest with authResponse := computeAuthResponse sampleSha1 (ascii "test") zeroChallenge }

theorem testLogin_wellFormed : testLogin.WellFormed := by
  constructor <;> decide

def testChunks : List Bytes :=
  let bytes := (testLogin.encode 1 Buffer.empty).readable
  [bytes.take 10, bytes.drop 10]

theorem testChunks_split : testChunks.flatten = (testLogin.encode 1 Buffer.empty).readable := by
  simp [testChunks]

theorem testChunks_ne_nil : ∀ chunk ∈ testChunks, chunk ≠ [] := by decide +kernel

theorem testLogin_loggedIn : LoggedIn testLogin
    (serve sampleSha1 testChunks (newTcpConnection 5 .initial zeroChallenge)) := by
  obtain ⟨greeting, q, b', -, -, -, drawn, knows, -⟩ := login_end_to_end sampleSha1 5 .initial
    zeroChallenge { authPluginData := zeroChallenge } testLogin testLogin_wellFormed (by decide) 1
    testChunks testChunks_ne_nil testChunks_split
  apply knows (ascii "test") (by decide)
  rw [drawn]
  rfl

/-! ## The response of another connection -/

section Replay
variable {sha1 : Bytes → Vector UInt8 20} {password username : Bytes}

/-- The hash that hides the digest of a password in a response. -/
def mask (sha1 : Bytes → Vector UInt8 20) (password : Bytes) (challenge : Vector UInt8 20) :
    Vector UInt8 20 := sha1 (challenge.toList ++ doubleSha1 sha1 password)

theorem xorBytes_comm (a b : Bytes) : xorBytes a b = xorBytes b a :=
  List.zipWith_comm_of_comm UInt8.xor_comm

theorem xorBytes_left_inj {a b c : Bytes} (left : b.length = a.length) (right : c.length = a.length) :
    xorBytes a b = xorBytes a c ↔ b = c := by
  rw [xorBytes_comm a b, xorBytes_comm a c, xorBytes_eq_iff left, xorBytes_xorBytes right]
  rw [length_xorBytes right]

theorem computeAuthResponse_eq (given : password ≠ []) (challenge : Vector UInt8 20) :
    computeAuthResponse sha1 password challenge =
      xorBytes (sha1 password).toList (mask sha1 password challenge).toList := by
  rw [computeAuthResponse, if_neg given]
  rfl

theorem authenticate_replayed_iff (distinguishes : Distinguishes sha1)
    (known : passwordOf username = some password) (given : password ≠ [])
    (challenge challenge' : Vector UInt8 20) :
    authenticate sha1 username (computeAuthResponse sha1 password challenge) challenge' = true ↔
      mask sha1 password challenge = mask sha1 password challenge' := by
  have stored : getPasswordHash sha1 username = doubleSha1 sha1 password := by
    rw [getPasswordHash_eq, known]
    rfl
  have length (v : Vector UInt8 20) : v.toList.length = 20 := Vector.length_toList
  rw [computeAuthResponse_eq given]
  have size : (xorBytes (sha1 password).toList (mask sha1 password challenge).toList).length = 20 := by
    rw [length_xorBytes (by simp), length]
  have some : xorBytes (sha1 password).toList (mask sha1 password challenge).toList ≠ [] := by
    intro none
    rw [none] at size
    cases size
  rw [authenticate, stored, if_neg (doubleSha1_ne_nil password), if_neg some,
    if_neg (not_not_intro size), decide_eq_true_eq]
  have folded : sha1 (challenge'.toList ++ doubleSha1 sha1 password) =
    mask sha1 password challenge' := rfl
  rw [folded, doubleSha1]
  have undone : (xorBytes (xorBytes (sha1 password).toList (mask sha1 password challenge).toList)
      (mask sha1 password challenge').toList).length = 20 := by
    rw [length_xorBytes (by rw [size, length]), length]
  rw [distinguishes.digest_eq_iff undone, xorBytes_eq_iff (by rw [size, length]) (by simp),
    xorBytes_left_inj (by simp) (by simp), Vector.toList_inj]

theorem loggedIn_iff {r : HandshakeResponse41Packet} {sequenceId : UInt8} {chunks : List Bytes}
    (wellFormed : r.WellFormed) (small : r.payload.length + 4 ≤ 4096)
    (some : ∀ chunk ∈ chunks, chunk ≠ [])
    (split : chunks.flatten = (r.encode sequenceId Buffer.empty).readable) (connectionId : UInt32)
    (storage : StorageEngine) (challenge : Vector UInt8 20) :
    LoggedIn r (serve sha1 chunks (newTcpConnection connectionId storage challenge)) ↔
      authenticate sha1 r.username r.authResponse challenge = true := by
  have served := @serve_login sha1 _ _ _ wellFormed small some split connectionId storage challenge
  by_cases granted : authenticate sha1 r.username r.authResponse challenge = true
  · obtain ⟨exec, connected⟩ := (if_pos granted).mp served
    exact iff_of_true (loggedIn_of_served connected exec) granted
  · obtain ⟨exec, connected⟩ := (if_neg granted).mp served
    exact iff_of_false (fun loggedIn => loggedIn.not_refused (refused_of_served small connected exec))
      granted

end Replay

/-- A response that was made for one challenge lets a client in on a connection with another one
exactly if the user has no password, or the hash takes both challenges to one mask. -/
theorem login_replayed_iff (sha1 : Bytes → Vector UInt8 20) (distinguishes : Distinguishes sha1)
    (connectionId : UInt32) (storage : StorageEngine) (challenge challenge' : Vector UInt8 20)
    (password : Bytes) (r : HandshakeResponse41Packet)
    (known : passwordOf r.username = some password)
    (answered : r.authResponse = computeAuthResponse sha1 password challenge)
    (wellFormed : r.WellFormed) (small : r.payload.length + 4 ≤ 4096) (sequenceId : UInt8)
    (chunks : List Bytes) (some : ∀ chunk ∈ chunks, chunk ≠ [])
    (split : chunks.flatten = (r.encode sequenceId Buffer.empty).readable) :
    LoggedIn r (serve sha1 chunks (newTcpConnection connectionId storage challenge')) ↔
      password = [] ∨ mask sha1 password challenge = mask sha1 password challenge' := by
  rw [loggedIn_iff wellFormed small some split, answered]
  by_cases empty : password = []
  · subst empty
    refine iff_of_true ?_ (.inl rfl)
    have same : computeAuthResponse sha1 [] challenge = computeAuthResponse sha1 [] challenge' := rfl
    rw [same]
    exact authenticate_computed known
  · rw [authenticate_replayed_iff distinguishes known empty]
    exact (or_iff_right empty).symm

theorem testLogin_replayed : LoggedIn testLogin
    (serve sampleSha1 testChunks (newTcpConnection 6 .initial (.replicate 20 1))) ↔
      ascii "test" = [] ∨ mask sampleSha1 (ascii "test") zeroChallenge =
        mask sampleSha1 (ascii "test") (.replicate 20 1) :=
  login_replayed_iff sampleSha1 sampleSha1_distinguishes 6 .initial zeroChallenge (.replicate 20 1)
    (ascii "test") testLogin (by decide) rfl testLogin_wellFormed (by decide) 1 testChunks
    testChunks_ne_nil testChunks_split

end TinySql
