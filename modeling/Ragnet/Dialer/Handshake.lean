import Ragnet.Dialer
import Ragnet.Message.RoundTrip

/-!
# The handshake

A dialer and a listener agree on an MTU: the probe carries it as its length, and the other three
messages as a field.  Everything goes through the encodings, and through buffers that cut off what
does not fit.
-/

namespace Ragnet

open Proc Wire

/-! ## What the dialer reads -/

namespace Dialer

theorem discoverReply_of_read {reply : OpenConnectionReply1}
    (h : OpenConnectionReply1.read reply.write.tail = .ok reply) :
    discoverReply reply.write =
      .ok (if reply.serverGuid = 0 ∨ reply.mtu < 400 ∨ reply.mtu > 1500 then none
        else some (reply.mtu, reply.serverHasSecurity, reply.cookie)) := by
  have hwrite : reply.write = Id.openConnectionReply1 :: reply.write.tail := rfl
  rw [hwrite, discoverReply, if_pos rfl, h, Checked.ok_bind]
  split
  · rfl
  · rfl

theorem openReply_write (reply : OpenConnectionReply2) :
    openReply reply.write = .ok (some reply.mtu) := by
  have hwrite : reply.write = Id.openConnectionReply2 :: reply.write.tail := rfl
  rw [hwrite, openReply, if_pos rfl, OpenConnectionReply2.read_write, Checked.ok_bind]

end Dialer

/-! ## The messages fit the buffers -/

theorem sizeofAddr_le (addr : SocketAddr) : sizeofAddr addr ≤ 29 := by
  cases addr with
  | v4 octets port => exact (by decide : sizeofAddr4 ≤ 29)
  | v6 octets port flow scope => exact le_rfl

theorem OpenConnectionReply1.length_write_le (reply : OpenConnectionReply1) :
    reply.write.length ≤ bufferSize := by
  rw [bufferSize, write]
  cases reply.serverHasSecurity with
  | true => simp
  | false => simp

theorem OpenConnectionRequest2.length_write_short (request : OpenConnectionRequest2) :
    request.write.length ≤ 61 := by
  have haddr := sizeofAddr_le request.serverAddress
  rw [write]
  cases request.serverHasSecurity with
  | true =>
      simp [length_putAddr]
      omega
  | false =>
      simp [length_putAddr]
      omega

theorem OpenConnectionRequest2.length_write_le (request : OpenConnectionRequest2) :
    request.write.length ≤ bufferSize :=
  request.length_write_short.trans (by decide)

theorem OpenConnectionReply2.length_write_le (reply : OpenConnectionReply2) :
    reply.write.length ≤ bufferSize := by
  have haddr := sizeofAddr_le reply.clientAddress
  simp only [bufferSize, write, List.length_append, length_putAddr, length_writeInt64,
    length_writeUint16, length_unconnectedMessageSequence, List.length_singleton]
  omega

/-! ## Both sides -/

namespace Listener

variable (build : Build) (hash : Bytes → UInt32) (env : ListenEnv)

/-- A client without a connection sends a datagram, and gets what the listener sends to it. -/
def exchange (clientAddr : SocketAddr) (data : Bytes) : Action (List Bytes) := do
  let before ← Proc.get
  handleUnconnected hash env (data.take bufferSize) clientAddr
  let after ← Proc.get
  let sent := after.sent.drop before.sent.length
  pure ((sent.filter fun d ↦ d.1 = clientAddr).map fun d ↦ d.2.take bufferSize)

/-- A probe of `Dialer::discover_mtu`. -/
def probe (clientAddr : SocketAddr) (mtu : UInt16) : Action (Option Dialer.Discovery) := do
  let request ← Proc.ofExcept (Dialer.discoverRequest build mtu)
  let replies ← exchange hash env clientAddr request
  match replies with
  | [] => pure none
  | reply :: _ => Proc.ofExcept (Dialer.discoverReply reply)

/-- A round of `Dialer::open_connection`, and the connection that `Dialer::dial_addr` creates. -/
def openRound (clientAddr remoteAddr : SocketAddr) (clientGuid : UInt64)
    (discovery : Dialer.Discovery) : Action (Option Conn) := do
  let replies ← exchange hash env clientAddr (Dialer.openRequest remoteAddr clientGuid discovery)
  match replies with
  | [] => pure none
  | reply :: _ => do
      let mtu ← Proc.ofExcept (Dialer.openReply reply)
      pure (mtu.map fun mtu ↦ Conn.new mtu.toNat)

/-! ## One exchange -/

variable {hash env} {self : Listener} {clientAddr : SocketAddr}

/-- A listener that answers with one datagram. -/
theorem exchange_of_sent {data reply : Bytes} {self' : Listener} (hlen : reply.length ≤ bufferSize)
    (hhandle : handleUnconnected hash env (data.take bufferSize) clientAddr self = (self', .ok ()))
    (hsent : self'.sent = self.sent ++ [(clientAddr, reply)]) :
    exchange hash env clientAddr data self = (self', .ok [reply]) := by
  have hfilter : [(clientAddr, reply)].filter (fun d ↦ d.1 = clientAddr) = [(clientAddr, reply)] :=
    List.filter_eq_self.mpr fun d hd ↦ by simp [List.mem_singleton.mp hd]
  rw [exchange, get_bind, bind_ok hhandle, get_bind, hsent, List.drop_left, hfilter,
    List.map_singleton, List.take_of_length_le hlen]
  rfl

/-! ## The first exchange -/

def agreedMtu (mtu : UInt16) : UInt16 := min mtu (UInt16.ofNat maxMtuSize)

theorem toNat_agreedMtu (mtu : UInt16) : (agreedMtu mtu).toNat = min mtu.toNat 1492 := by
  have hmax : (UInt16.ofNat maxMtuSize).toNat = 1492 := rfl
  change (if mtu ≤ UInt16.ofNat maxMtuSize then mtu else UInt16.ofNat maxMtuSize).toNat = _
  rw [min_def]
  by_cases hle : mtu ≤ UInt16.ofNat maxMtuSize
  · rw [if_pos hle, if_pos (hmax ▸ UInt16.le_iff_toNat_le.mp hle)]
  · rw [if_neg hle, if_neg fun hn ↦ hle (UInt16.le_iff_toNat_le.mpr (hmax ▸ hn)), hmax]

/-- What the buffer of the listener cuts off a probe makes no difference. -/
theorem agreedMtu_received {mtu : UInt16} (h : 46 ≤ mtu.toNat) :
    agreedMtu (UInt16.ofNat (min (mtu.toNat - 46) 1482 + 46)) = agreedMtu mtu := by
  have hlt : mtu.toNat < 65536 := mtu.toNat_lt
  refine UInt16.toNat_inj.mp ?_
  rw [toNat_agreedMtu, toNat_agreedMtu, UInt16.toNat_ofNat_of_lt' (by change _ < 65536; omega)]
  omega

theorem discoverRequest_eq (build : Build) {mtu : UInt16} (h : 46 ≤ mtu.toNat) :
    ∃ request, Dialer.discoverRequest build mtu = .ok request ∧
      request.take bufferSize = Id.openConnectionRequest1 :: (unconnectedMessageSequence ++
        ([protocolVersion] ++ List.replicate (min (mtu.toNat - 46) 1482) 0)) := by
  refine ⟨_, OpenConnectionRequest1.write_eq build ⟨protocolVersion, mtu⟩ h, ?_⟩
  have hhead : ([Id.openConnectionRequest1] ++ unconnectedMessageSequence ++
      [protocolVersion]).length = 18 := rfl
  rw [List.take_append, hhead, List.take_replicate, List.take_of_length_le (by rw [hhead]; decide),
    List.append_assoc, Nat.min_comm]
  rfl

def discoverAnswer (hash : Bytes → UInt32) (self : Listener) (clientAddr : SocketAddr)
    (mtu : UInt16) : OpenConnectionReply1 :=
  if self.config.disableCookies then OpenConnectionReply1.new self.id (agreedMtu mtu)
  else OpenConnectionReply1.withSecurity self.id (self.cookie hash clientAddr) (agreedMtu mtu)

def answered (self : Listener) (clientAddr : SocketAddr) (reply : Bytes) : Listener :=
  { self with sent := self.sent ++ [(clientAddr, reply)] }

/-- A probe is answered. -/
theorem handleUnconnected_discoverRequest {mtu : UInt16} (h : 46 ≤ mtu.toNat) :
    handleUnconnected hash env (Id.openConnectionRequest1 :: (unconnectedMessageSequence ++
        ([protocolVersion] ++ List.replicate (min (mtu.toNat - 46) 1482) 0))) clientAddr self =
      sendTo env (self.discoverAnswer hash clientAddr mtu).write clientAddr self := by
  have hid : ¬ (Id.openConnectionRequest1 = Id.unconnectedPing ∨
      Id.openConnectionRequest1 = Id.unconnectedPingOpenConnections) := by decide
  have hread := OpenConnectionRequest1.read_padded protocolVersion
    (List.replicate (min (mtu.toNat - 46) 1482) 0)
  rw [List.length_replicate] at hread
  rw [handleUnconnected, if_neg hid, if_pos rfl, handleOpenConnectionRequest1, hread,
    ofExcept_ok_bind, get_bind]
  dsimp only
  have hmtu := agreedMtu_received h
  rw [agreedMtu] at hmtu
  rw [if_neg (fun hn ↦ hn rfl), hmtu]
  rfl

theorem handle_discoverRequest (hio : env.ioError = none) {mtu : UInt16} (h : 46 ≤ mtu.toNat) :
    handleUnconnected hash env (Id.openConnectionRequest1 :: (unconnectedMessageSequence ++
        ([protocolVersion] ++ List.replicate (min (mtu.toNat - 46) 1482) 0))) clientAddr self =
      (self.answered clientAddr (self.discoverAnswer hash clientAddr mtu).write, .ok ()) := by
  rw [handleUnconnected_discoverRequest h, sendTo, hio]
  rfl

theorem discoverAnswer_eq (mtu : UInt16) :
    self.discoverAnswer hash clientAddr mtu =
      ⟨self.id, !self.config.disableCookies, self.cookie hash clientAddr, agreedMtu mtu⟩ := by
  rw [discoverAnswer, cookie]
  cases self.config.disableCookies with
  | true => rfl
  | false => rfl

/-- The dialer goes on unless the MTU is too small. -/
theorem discoverReply_answer (hid : self.id ≠ 0) (mtu : UInt16) :
    Dialer.discoverReply (self.discoverAnswer hash clientAddr mtu).write =
      .ok (if 400 ≤ mtu.toNat then
        some (agreedMtu mtu, !self.config.disableCookies, self.cookie hash clientAddr)
      else none) := by
  have hsecurity : (self.discoverAnswer hash clientAddr mtu).serverHasSecurity = false →
      (self.discoverAnswer hash clientAddr mtu).cookie = 0 := by
    rw [discoverAnswer_eq, cookie]
    intro hno
    rw [if_pos (by simpa using hno)]
  have hread := OpenConnectionReply1.read_write _ hsecurity
  have hagreed := toNat_agreedMtu mtu
  have hlow : agreedMtu mtu < 400 ↔ ¬ 400 ≤ mtu.toNat := by
    rw [UInt16.lt_iff_toNat_lt, hagreed]
    change min mtu.toNat 1492 < 400 ↔ _
    omega
  have hhigh : ¬ agreedMtu mtu > 1500 := by
    rw [gt_iff_lt, UInt16.lt_iff_toNat_lt, hagreed]
    change ¬ 1500 < min mtu.toNat 1492
    omega
  rw [Dialer.discoverReply_of_read hread, discoverAnswer_eq]
  dsimp only
  by_cases hmtu : 400 ≤ mtu.toNat
  · have haccept : ¬ (self.id = 0 ∨ agreedMtu mtu < 400 ∨ agreedMtu mtu > 1500) := by
      rintro (h | h | h)
      · exact hid h
      · exact hlow.mp h hmtu
      · exact hhigh h
    rw [if_neg haccept, if_pos hmtu]
  · rw [if_pos (Or.inr (Or.inl (hlow.mpr hmtu))), if_neg hmtu]

/-! ## The second exchange -/

theorem openRequest_eq (remoteAddr : SocketAddr) (clientGuid : UInt64) (mtu : UInt16) :
    Dialer.openRequest remoteAddr clientGuid
        (mtu, !self.config.disableCookies, self.cookie hash clientAddr) =
      (⟨remoteAddr, mtu, clientGuid, !self.config.disableCookies,
        self.cookie hash clientAddr⟩ : OpenConnectionRequest2).write := by
  rw [Dialer.openRequest, cookie]
  cases self.config.disableCookies with
  | true => rfl
  | false => rfl

def granted (self : Listener) (clientAddr : SocketAddr) (mtu : UInt16) : Listener :=
  (self.answered clientAddr (OpenConnectionReply2.new self.id clientAddr mtu).write).openConnection
    clientAddr mtu

/-- The cookie check succeeds. -/
theorem handle_openRequest (hio : env.ioError = none) (remoteAddr : SocketAddr)
    (clientGuid : UInt64) (mtu : UInt16) :
    handleUnconnected hash env
        (OpenConnectionRequest2.write ⟨remoteAddr, agreedMtu mtu, clientGuid,
          !self.config.disableCookies, self.cookie hash clientAddr⟩) clientAddr self =
      (self.granted clientAddr (agreedMtu mtu), .ok ()) := by
  have hread := OpenConnectionRequest2.read_write
    ⟨remoteAddr, agreedMtu mtu, clientGuid, !self.config.disableCookies,
      self.cookie hash clientAddr⟩ (by
    intro hno
    rw [cookie, if_pos (by simpa using hno)])
  have hmtu : agreedMtu (agreedMtu mtu) = agreedMtu mtu := by
    refine UInt16.toNat_inj.mp ?_
    rw [toNat_agreedMtu, toNat_agreedMtu]
    omega
  generalize hrequest : OpenConnectionRequest2.write ⟨remoteAddr, agreedMtu mtu, clientGuid,
    !self.config.disableCookies, self.cookie hash clientAddr⟩ = request at hread ⊢
  obtain ⟨rest, rfl⟩ : ∃ rest, request = Id.openConnectionRequest2 :: rest := by
    rw [← hrequest]
    exact ⟨_, rfl⟩
  rw [List.tail_cons] at hread
  have hopens := handleUnconnected_openConnectionRequest2 hash env hread rfl hio
  rw [agreedMtu] at hmtu
  dsimp only at hopens
  rw [hmtu] at hopens
  exact hopens

theorem openRound_eq (hio : env.ioError = none) (remoteAddr : SocketAddr) (clientGuid : UInt64)
    (mtu : UInt16) {reply : Bytes} :
    openRound hash env clientAddr remoteAddr clientGuid
        (agreedMtu mtu, !self.config.disableCookies, self.cookie hash clientAddr)
        (self.answered clientAddr reply) =
      ((self.answered clientAddr reply).granted clientAddr (agreedMtu mtu),
        .ok (some (Conn.new (agreedMtu mtu).toNat))) := by
  have hrequest := @openRequest_eq hash (self.answered clientAddr reply) clientAddr remoteAddr
    clientGuid (agreedMtu mtu)
  have hsecond : exchange hash env clientAddr
      (Dialer.openRequest remoteAddr clientGuid
        (agreedMtu mtu, !self.config.disableCookies, self.cookie hash clientAddr))
      (self.answered clientAddr reply) =
      ((self.answered clientAddr reply).granted clientAddr (agreedMtu mtu),
        .ok [(OpenConnectionReply2.new self.id clientAddr (agreedMtu mtu)).write]) := by
    refine exchange_of_sent (OpenConnectionReply2.length_write_le _) ?_ rfl
    have htake : (Dialer.openRequest remoteAddr clientGuid
        (agreedMtu mtu, !self.config.disableCookies, self.cookie hash clientAddr)).take bufferSize =
          _ := (congrArg (List.take bufferSize) hrequest).trans
      (List.take_of_length_le (OpenConnectionRequest2.length_write_le _))
    rw [htake]
    exact handle_openRequest hio remoteAddr clientGuid mtu
  rw [openRound, bind_ok hsecond]
  dsimp only
  rw [Dialer.openReply_write]
  rfl

/-! ## The handshake -/

/-- **The two sides agree.**  For every MTU that a probe can have, the dialer goes on exactly when
it is at least 400; then the listener accepts the cookie, and the two connections have the same
MTU. -/
theorem handshake_agrees {build : Build} {env' : ListenEnv} (hid : self.id ≠ 0)
    (hio : env.ioError = none) (hio' : env'.ioError = none) {mtu : UInt16} (hmtu : 46 ≤ mtu.toNat)
    (remoteAddr : SocketAddr) (clientGuid : UInt64) :
    ∃ self₁ discovery, probe build hash env clientAddr mtu self = (self₁, .ok discovery) ∧
      (discovery.isSome = true ↔ 400 ≤ mtu.toNat) ∧
      ∀ d, discovery = some d → ∃ self₂ conn i peer,
        openRound hash env' clientAddr remoteAddr clientGuid d self₁ = (self₂, .ok (some conn)) ∧
        self₂.connections.lookup clientAddr = some i ∧ self₂.peers[i]? = some peer ∧
        conn.mtu.value = min mtu.toNat 1492 ∧ peer.conn.mtu.value = min mtu.toNat 1492 ∧
        400 ≤ min mtu.toNat 1492 := by
  obtain ⟨request, hrequest, htake⟩ := discoverRequest_eq build hmtu
  have hfirst : exchange hash env clientAddr request self =
      (self.answered clientAddr (self.discoverAnswer hash clientAddr mtu).write,
        .ok [(self.discoverAnswer hash clientAddr mtu).write]) := by
    refine exchange_of_sent (OpenConnectionReply1.length_write_le _) ?_ rfl
    rw [htake]
    exact handle_discoverRequest hio hmtu
  have hprobe : probe build hash env clientAddr mtu self =
      (self.answered clientAddr (self.discoverAnswer hash clientAddr mtu).write,
        .ok (if 400 ≤ mtu.toNat then
          some (agreedMtu mtu, !self.config.disableCookies, self.cookie hash clientAddr)
          else none)) := by
    rw [probe, hrequest, ofExcept_ok_bind, bind_ok hfirst]
    dsimp only
    rw [discoverReply_answer hid mtu]
    rfl
  refine ⟨_, _, hprobe, ?_, ?_⟩
  · split
    · next h => exact iff_of_true rfl h
    · next h => exact iff_of_false Bool.false_ne_true h
  · intro d hd
    obtain ⟨hmtu', rfl⟩ : 400 ≤ mtu.toNat ∧
        (agreedMtu mtu, !self.config.disableCookies, self.cookie hash clientAddr) = d := by
      split at hd
      · next h => exact ⟨h, Option.some.inj hd⟩
      · cases hd
    have hvalue : (agreedMtu mtu).toNat = min mtu.toNat 1492 := toNat_agreedMtu mtu
    have hclamp : (Conn.new (agreedMtu mtu).toNat).mtu.value = min mtu.toNat 1492 := by
      change max 400 (min (agreedMtu mtu).toNat 1492) = _
      omega
    refine ⟨_, _, self.peers.length, ⟨clientAddr, Conn.new (agreedMtu mtu).toNat, false, true, 0⟩,
      openRound_eq hio' remoteAddr clientGuid mtu, Finmap.lookup_insert _,
      List.getElem?_concat_length, hclamp, hclamp, by omega⟩

/-- A listener with cookies and a client that probes 1200. -/
theorem handshake_agrees_1200 :
    ∃ self₁ d self₂ conn,
      probe .debug (fun _ ↦ 5) .calm
        (.v4 ⟨[10, 0, 0, 1], rfl⟩ 19132) 1200 (new ListenConfig.default 1 7) =
          (self₁, .ok (some d)) ∧
      openRound (fun _ ↦ 5) .calm
        (.v4 ⟨[10, 0, 0, 1], rfl⟩ 19132) (.v4 ⟨[10, 0, 0, 2], rfl⟩ 19133) 9 d self₁ =
          (self₂, .ok (some conn)) ∧ conn.mtu.value = 1200 := by
  obtain ⟨self₁, discovery, hprobe, hiff, hopen⟩ :=
    @handshake_agrees (fun _ ↦ 5) .calm
      (new ListenConfig.default 1 7) (.v4 ⟨[10, 0, 0, 1], rfl⟩ 19132) .debug
      .calm (by decide) rfl rfl 1200 (by decide)
      (.v4 ⟨[10, 0, 0, 2], rfl⟩ 19133) 9
  obtain ⟨d, rfl⟩ := Option.isSome_iff_exists.mp (hiff.mpr (by decide))
  obtain ⟨self₂, conn, -, -, hround, -, -, hvalue, -⟩ := hopen d rfl
  exact ⟨self₁, d, self₂, conn, hprobe, hround, hvalue⟩

end Listener

end Ragnet
