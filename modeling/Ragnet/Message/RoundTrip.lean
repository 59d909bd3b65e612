import Ragnet.Message.Connected
import Ragnet.Message.Unconnected

/-!
# Reading what was written

Reading the bytes behind the id of a written message gives the message back.  A field is found at
its offset whatever stands in front of it and behind it, so each message is read field by field.

An IPv6 address comes back without its flow information and scope.
-/

namespace Ragnet

open Checked Wire

/-! ## Fields -/

section Fields

variable {n offset : Nat} {data p q : Bytes}

theorem loadOctets_field {octets : Octets n} (h : data = p ++ (octets.val ++ q))
    (hp : p.length = offset) : loadOctets n data offset = .ok octets := by
  have hlen : offset + n ≤ data.length := by
    rw [h, List.length_append, List.length_append, octets.property, hp]
    omega
  rw [loadOctets, dif_pos hlen]
  refine congrArg Except.ok (Subtype.ext ?_)
  dsimp only
  rw [h, ← hp, List.drop_left, List.take_left' octets.property]

theorem loadBe_field {field : Bytes} (h : data = p ++ (field ++ q)) (hp : p.length = offset)
    (hn : field.length = n) : loadBe n data offset = .ok (ofBeBytes field) := by
  have hread : loadOctets n data offset = .ok ⟨field, hn⟩ := loadOctets_field h hp
  rw [loadBe, hread, ok_bind]

@[simp] theorem length_writeInt64 (v : Int64) : (writeInt64 v).length = 8 := length_beBytes 8 _

@[simp] theorem length_writeUInt64 (v : UInt64) : (writeUInt64 v).length = 8 := length_beBytes 8 _

@[simp] theorem length_writeUint16 (v : UInt16) : (writeUint16 v).length = 2 := rfl

@[simp] theorem length_writeUint32 (v : UInt32) : (writeUint32 v).length = 4 := rfl

@[simp] theorem length_unconnectedMessageSequence : unconnectedMessageSequence.length = 16 := rfl

theorem loadUInt64_field {v : UInt64} (h : data = p ++ (writeUInt64 v ++ q))
    (hp : p.length = offset) : loadUInt64 data offset = .ok v := by
  rw [loadUInt64, loadBe_field h hp (length_writeUInt64 v), ok_bind, writeUInt64,
    ofBeBytes_beBytes_of_lt (v.toNat_lt.trans_eq (by norm_num)), UInt64.ofNat_toNat]

theorem loadInt64_field {v : Int64} (h : data = p ++ (writeInt64 v ++ q))
    (hp : p.length = offset) : loadInt64 data offset = .ok v := by
  rw [loadInt64, loadBe_field h hp (length_writeInt64 v), ok_bind, writeInt64,
    ofBeBytes_beBytes_of_lt (v.toUInt64.toNat_lt.trans_eq (by norm_num)), UInt64.ofNat_toNat]
  rfl

theorem loadUInt32_field {v : UInt32} (h : data = p ++ (writeUint32 v ++ q))
    (hp : p.length = offset) : loadUInt32 data offset = .ok v := by
  rw [loadUInt32, loadBe_field h hp (length_writeUint32 v), ok_bind, writeUint32_eq,
    ofBeBytes_beBytes_of_lt (v.toNat_lt.trans_eq (by norm_num)), UInt32.ofNat_toNat]

theorem loadUInt16_field {v : UInt16} (h : data = p ++ (writeUint16 v ++ q))
    (hp : p.length = offset) : loadUInt16 data offset = .ok v := by
  rw [loadUInt16, loadBe_field h hp (length_writeUint16 v), ok_bind, writeUint16_eq,
    ofBeBytes_beBytes_of_lt (v.toNat_lt.trans_eq (by norm_num)), UInt16.ofNat_toNat]

theorem index_field {b : UInt8} (h : data = p ++ ([b] ++ q)) (hp : p.length = offset) :
    (index data offset : Result UInt8) = .ok b := by
  refine index_of_getElem? ?_
  rw [h, ← hp, List.getElem?_append_right le_rfl, Nat.sub_self]
  rfl

theorem sliceFrom_field (h : data = p ++ q) (hp : p.length = offset) :
    (sliceFrom data offset : Result Bytes) = .ok q := by
  have hle : offset ≤ data.length := by
    rw [h, List.length_append, hp]
    exact Nat.le_add_right _ _
  rw [sliceFrom_of_le hle, h, ← hp, List.drop_left]

end Fields

/-! ## Addresses -/

namespace SocketAddr

/-- The address without the flow information and the scope. -/
def plain : SocketAddr → SocketAddr
  | v4 octets port => v4 octets port
  | v6 octets port _ _ => v6 octets port 0 0

end SocketAddr

/-- Inverting an octet, as `read_addr` does it. -/
theorem invert_octet (b : UInt8) : UInt8.ofInt (-((~~~ b).toNat : Int) - 1) = b := by
  apply UInt8.toNat_inj.mp
  have hlt := b.toNat_lt
  have hneg : (-((255 - b.toNat : Nat) : Int) - 1) % 2 ^ 8 = b.toNat := by omega
  rw [UInt8.toNat_not, UInt8.ofInt]
  change (UInt8.ofNat ((-((255 - b.toNat : Nat) : Int) - 1) % 2 ^ 8).toNat).toNat = _
  rw [hneg, Int.toNat_natCast, UInt8.toNat_ofNat_of_lt' hlt]

theorem length_putAddr (addr : SocketAddr) : (putAddr addr).length = sizeofAddr addr := by
  cases addr with
  | v4 octets port =>
      rw [putAddr, sizeofAddr, sizeofAddr4]
      have hlen := octets.property
      split
      · rfl
      · simp [hlen]
  | v6 octets port flowinfo scopeId =>
      have hlen := octets.property
      simp [putAddr, sizeofAddr, sizeofAddr6, hlen]

theorem addrSize_putAddr (addr : SocketAddr) (rest : Bytes) :
    addrSize (putAddr addr ++ rest) = sizeofAddr addr := by
  cases addr with
  | v4 octets port => rfl
  | v6 octets port flowinfo scopeId => rfl

/-- Both ways of writing the octets of an IPv4 address invert them. -/
theorem putAddr_v4 (octets : Octets 4) (port : UInt16) :
    putAddr (.v4 octets port) = [4] ++ (octets.val.map (~~~ ·) ++ writeUint16 port) := by
  rw [putAddr]
  split
  · next h =>
    rw [h]
    rfl
  · rw [List.append_assoc]

/-- Reading a written address. -/
theorem readAddr_putAddr (addr : SocketAddr) (rest : Bytes) :
    readAddr (putAddr addr ++ rest) = .ok (addr.plain, sizeofAddr addr) := by
  cases addr with
  | v4 octets port =>
      have hlen : (octets.val.map (~~~ ·)).length = 4 := by
        rw [List.length_map, octets.property]
      have hread : loadOctets 4 (putAddr (.v4 octets port) ++ rest) 1 =
          .ok ⟨octets.val.map (~~~ ·), hlen⟩ :=
        loadOctets_field (p := [4]) (q := writeUint16 port ++ rest) (by
          rw [putAddr_v4, List.append_assoc, List.append_assoc]) rfl
      have hport : loadUInt16 (putAddr (.v4 octets port) ++ rest) 5 = .ok port :=
        loadUInt16_field (p := [4] ++ octets.val.map (~~~ ·)) (q := rest) (by
          rw [putAddr_v4, List.append_assoc, List.append_assoc, List.append_assoc]) (by
          rw [List.length_append, hlen]
          rfl)
      have hv4 : isAddr4 (putAddr (.v4 octets port) ++ rest) = true := by
        rw [putAddr_v4]
        rfl
      rw [readAddr, if_pos hv4, hread, ok_bind, hport, ok_bind]
      refine congrArg (fun o ↦ Except.ok (SocketAddr.v4 o port, sizeofAddr4)) (Subtype.ext ?_)
      dsimp only
      rw [List.map_map]
      refine (List.map_congr_left fun b _ ↦ ?_).trans (List.map_id _)
      exact invert_octet b
  | v6 octets port flowinfo scopeId =>
      have hdata : putAddr (.v6 octets port flowinfo scopeId) ++ rest =
          [6, 23, 0] ++ (writeUint16 port ++ ([0, 0, 0, 0] ++ (octets.val ++
            ([0, 0, 0, 0] ++ rest)))) := by
        simp only [putAddr, List.append_assoc]
      have hport : loadUInt16 (putAddr (.v6 octets port flowinfo scopeId) ++ rest) 3 = .ok port :=
        loadUInt16_field hdata rfl
      have hread : loadOctets 16 (putAddr (.v6 octets port flowinfo scopeId) ++ rest) 9 =
          .ok octets :=
        loadOctets_field (p := [6, 23, 0] ++ (writeUint16 port ++ [0, 0, 0, 0]))
          (q := [0, 0, 0, 0] ++ rest) (by rw [hdata]; simp only [List.append_assoc]) rfl
      have hv6 : ¬ isAddr4 (putAddr (.v6 octets port flowinfo scopeId) ++ rest) = true := by
        rw [hdata]
        exact (by decide : ¬ false = true)
      rw [readAddr, if_neg hv6, hport, ok_bind, hread, ok_bind]
      rfl

/-! ## Messages before a connection -/

theorem UnconnectedPing.read_write (m : UnconnectedPing) : read m.write.tail = .ok m := by
  have hdata : m.write.tail = writeInt64 m.pingTime ++ (unconnectedMessageSequence ++
      writeInt64 m.clientGuid) := by
    simp only [write, List.append_assoc]
    rfl
  have hlen : ¬ m.write.tail.length < 32 := by simp [hdata]
  have hping : loadInt64 m.write.tail 0 = .ok m.pingTime := loadInt64_field (p := []) hdata rfl
  have hguid : loadInt64 m.write.tail 24 = .ok m.clientGuid :=
    loadInt64_field (p := writeInt64 m.pingTime ++ unconnectedMessageSequence) (q := [])
      (by simp [hdata]) (by simp)
  rw [read, if_neg hlen, hping, ok_bind, hguid, ok_bind]

theorem UnconnectedPong.read_write (m : UnconnectedPong) (h : m.data.length ≤ 65535) :
    read m.write.tail = .ok m := by
  have hdata : m.write.tail = writeInt64 m.pingTime ++ (writeInt64 m.serverGuid ++
      (unconnectedMessageSequence ++ (writeUint16 (UInt16.ofNat m.data.length) ++ m.data))) := by
    simp only [write, List.append_assoc]
    rfl
  have hsize : (UInt16.ofNat m.data.length).toNat = m.data.length :=
    UInt16.toNat_ofNat_of_lt' (Nat.lt_succ_of_le h)
  have hlen : m.write.tail.length = 34 + m.data.length := by
    simp [hdata]
    omega
  have hping : loadInt64 m.write.tail 0 = .ok m.pingTime := loadInt64_field (p := []) hdata rfl
  have hguid : loadInt64 m.write.tail 8 = .ok m.serverGuid :=
    loadInt64_field (p := writeInt64 m.pingTime) hdata (by simp)
  have hdataLen : loadUInt16 m.write.tail 32 = .ok (UInt16.ofNat m.data.length) :=
    loadUInt16_field (p := writeInt64 m.pingTime ++ (writeInt64 m.serverGuid ++
      unconnectedMessageSequence)) (q := m.data) (by simp [hdata]) (by simp)
  have hpong : loadOctets m.data.length m.write.tail 34 = .ok ⟨m.data, rfl⟩ :=
    loadOctets_field (p := writeInt64 m.pingTime ++ (writeInt64 m.serverGuid ++
      (unconnectedMessageSequence ++ writeUint16 (UInt16.ofNat m.data.length)))) (q := [])
      (by simp [hdata]) (by simp)
  rw [read, if_neg (by omega), hping, ok_bind, hguid, ok_bind, hdataLen, ok_bind, hsize,
    if_neg (by omega), hpong, ok_bind]

/-- The MTU is the length of the datagram with its headers. -/
theorem OpenConnectionRequest1.write_eq (build : Build) (m : OpenConnectionRequest1)
    (h : 46 ≤ m.mtu.toNat) :
    write build m = .ok ([Id.openConnectionRequest1] ++ unconnectedMessageSequence ++
      [m.clientProtocol] ++ List.replicate (m.mtu.toNat - 46) 0) := by
  have hsize : m.mtu.toNat - 20 - 8 - 18 = m.mtu.toNat - 46 := by omega
  rw [write, sub_of_le build 16 (by omega), ok_bind, sub_of_le build 16 (by omega), ok_bind,
    if_neg (by omega), hsize]

/-- A datagram that starts like a request is read as one, whatever fills it up. -/
theorem OpenConnectionRequest1.read_padded (clientProtocol : UInt8) (padding : Bytes) :
    read (unconnectedMessageSequence ++ ([clientProtocol] ++ padding)) =
      .ok ⟨clientProtocol, UInt16.ofNat (padding.length + 46)⟩ := by
  have hlen : (unconnectedMessageSequence ++ ([clientProtocol] ++ padding)).length =
      padding.length + 17 := by
    simp
    omega
  have hprotocol : (index (unconnectedMessageSequence ++ ([clientProtocol] ++ padding)) 16 :
      Result UInt8) = .ok clientProtocol := index_field (p := unconnectedMessageSequence) rfl rfl
  rw [read, if_neg (by omega), hprotocol, ok_bind, hlen]

theorem OpenConnectionRequest1.read_write (build : Build) (m : OpenConnectionRequest1)
    (h : 46 ≤ m.mtu.toNat) :
    ∃ bytes, write build m = .ok (Id.openConnectionRequest1 :: bytes) ∧ read bytes = .ok m := by
  refine ⟨_, write_eq build m h, ?_⟩
  have hmtu :
      UInt16.ofNat ((List.replicate (m.mtu.toNat - 46) (0 : UInt8)).length + 46) = m.mtu := by
    rw [List.length_replicate, Nat.sub_add_cancel h, UInt16.ofNat_toNat]
  have hread := read_padded m.clientProtocol (List.replicate (m.mtu.toNat - 46) 0)
  rw [hmtu] at hread
  exact hread

theorem IncompatibleProtocolVersion.read_write (m : IncompatibleProtocolVersion) :
    read m.write.tail = .ok m := by
  have hdata : m.write.tail = [m.serverProtocol] ++ (unconnectedMessageSequence ++
      writeInt64 m.serverGuid) := by
    simp only [write, List.append_assoc]
    rfl
  have hlen : ¬ m.write.tail.length < 25 := by simp [hdata]
  have hprotocol : (index m.write.tail 0 : Result UInt8) = .ok m.serverProtocol :=
    index_field (p := []) hdata rfl
  have hguid : loadInt64 m.write.tail 17 = .ok m.serverGuid :=
    loadInt64_field (p := [m.serverProtocol] ++ unconnectedMessageSequence) (q := [])
      (by simp [hdata]) (by simp)
  rw [read, if_neg hlen, hprotocol, ok_bind, hguid, ok_bind]

/-- A reply is read field by field once its cookie has been read. -/
theorem OpenConnectionReply1.read_of {data field : Bytes} {serverGuid : Int64} {security : UInt8}
    {cookie : UInt32} {mtu : UInt16}
    (hdata : data = unconnectedMessageSequence ++ (writeInt64 serverGuid ++ ([security] ++
      (field ++ writeUint16 mtu))))
    (hcookie : readCookie data (security != 0) = .ok (cookie, field.length)) :
    read data = .ok ⟨serverGuid, security != 0, cookie, mtu⟩ := by
  have hlen : data.length = 27 + field.length := by
    simp [hdata]
    omega
  have hguid : loadInt64 data 16 = .ok serverGuid :=
    loadInt64_field (p := unconnectedMessageSequence) hdata rfl
  have hsecurity : (index data 24 : Result UInt8) = .ok security :=
    index_field (p := unconnectedMessageSequence ++ writeInt64 serverGuid)
      (q := field ++ writeUint16 mtu) (by simp [hdata]) (by simp)
  have hmtu : loadUInt16 data (25 + field.length) = .ok mtu :=
    loadUInt16_field (p := unconnectedMessageSequence ++ (writeInt64 serverGuid ++ ([security] ++
      field))) (q := []) (by simp [hdata]) (by simp; omega)
  rw [read, if_neg (by omega), hguid, ok_bind, hsecurity, ok_bind]
  dsimp only
  rw [hcookie, ok_bind]
  dsimp only
  rw [if_neg (by omega), hmtu, ok_bind]

/-- Without security a reply has no room for a cookie. -/
theorem OpenConnectionReply1.read_write (m : OpenConnectionReply1)
    (h : m.serverHasSecurity = false → m.cookie = 0) : read m.write.tail = .ok m := by
  obtain ⟨serverGuid, serverHasSecurity, cookie, mtu⟩ := m
  cases serverHasSecurity with
  | false =>
      obtain rfl : cookie = 0 := h rfl
      have hdata : (write ⟨serverGuid, false, 0, mtu⟩).tail = unconnectedMessageSequence ++
          (writeInt64 serverGuid ++ ([0] ++ ([] ++ writeUint16 mtu))) := by
        simp only [write, List.append_assoc]
        rfl
      exact read_of hdata rfl
  | true =>
      have hdata : (write ⟨serverGuid, true, cookie, mtu⟩).tail = unconnectedMessageSequence ++
          (writeInt64 serverGuid ++ ([1] ++ (writeUint32 cookie ++ writeUint16 mtu))) := by
        simp only [write, List.append_assoc]
        rfl
      refine read_of hdata ?_
      rw [hdata, readCookie, if_pos (by decide), if_neg (by simp)]
      rw [loadUInt32_field (p := unconnectedMessageSequence ++ (writeInt64 serverGuid ++ [1]))
        (v := cookie) (q := writeUint16 mtu) (by simp) (by simp), ok_bind]
      rfl

/-- A request is read field by field once its cookie has been read. -/
theorem OpenConnectionRequest2.read_of {self : OpenConnectionRequest2} {data p : Bytes}
    {serverAddress : SocketAddr} {mtu : UInt16} {clientGuid : UInt64} {cookie : UInt32}
    (hdata : data = p ++ (putAddr serverAddress ++ (writeUint16 mtu ++ writeUInt64 clientGuid)))
    (hp : p.length = 16 + self.cookieOffset) (hcookie : self.readCookie data = .ok cookie) :
    self.read data =
      .ok ⟨serverAddress.plain, mtu, clientGuid, self.serverHasSecurity, cookie⟩ := by
  have hlen : data.length = p.length + sizeofAddr serverAddress + 10 := by
    simp [hdata, length_putAddr]
    omega
  have haddress : (sliceFrom data p.length : Result Bytes) =
      .ok (putAddr serverAddress ++ (writeUint16 mtu ++ writeUInt64 clientGuid)) :=
    sliceFrom_field hdata rfl
  have hmtu : loadUInt16 data (p.length + sizeofAddr serverAddress) = .ok mtu :=
    loadUInt16_field (p := p ++ putAddr serverAddress) (q := writeUInt64 clientGuid)
      (by simp [hdata]) (by simp [length_putAddr])
  have hguid : loadUInt64 data (p.length + sizeofAddr serverAddress + 2) = .ok clientGuid :=
    loadUInt64_field (p := p ++ (putAddr serverAddress ++ writeUint16 mtu)) (q := [])
      (by simp [hdata]) (by simp [length_putAddr]; omega)
  rw [read, ← hp, if_neg (by omega), hcookie, ok_bind]
  dsimp only
  rw [haddress, ok_bind, addrSize_putAddr, if_neg (by omega), readAddr_putAddr, ok_bind]
  dsimp only
  rw [if_neg (by omega), hmtu, ok_bind, hguid, ok_bind]

/-- The reader is told whether there is a cookie. -/
theorem OpenConnectionRequest2.read_write (m : OpenConnectionRequest2)
    (h : m.serverHasSecurity = false → m.cookie = 0) :
    read { default with serverHasSecurity := m.serverHasSecurity } m.write.tail =
      .ok { m with serverAddress := m.serverAddress.plain } := by
  obtain ⟨serverAddress, mtu, clientGuid, serverHasSecurity, cookie⟩ := m
  cases serverHasSecurity with
  | false =>
      obtain rfl : cookie = 0 := h rfl
      refine read_of (p := unconnectedMessageSequence) ?_ rfl rfl
      simp only [write, List.append_assoc]
      rfl
  | true =>
      have hdata : (write ⟨serverAddress, mtu, clientGuid, true, cookie⟩).tail =
          unconnectedMessageSequence ++ (writeUint32 cookie ++ ([0] ++
            (putAddr serverAddress ++ (writeUint16 mtu ++ writeUInt64 clientGuid)))) := by
        simp only [write, if_true, List.append_assoc]
        rfl
      refine read_of (p := unconnectedMessageSequence ++ (writeUint32 cookie ++ [0])) ?_ rfl ?_
      · rw [hdata]
        simp
      · exact loadUInt32_field (p := unconnectedMessageSequence) hdata rfl

theorem OpenConnectionReply2.read_write (m : OpenConnectionReply2) :
    read m.write.tail = .ok { m with clientAddress := m.clientAddress.plain } := by
  obtain ⟨serverGuid, clientAddress, mtu, doSecurity⟩ := m
  generalize hd : (write ⟨serverGuid, clientAddress, mtu, doSecurity⟩).tail = data
  have hdata : data = unconnectedMessageSequence ++ (writeInt64 serverGuid ++
      (putAddr clientAddress ++ (writeUint16 mtu ++ [if doSecurity then 1 else 0]))) := by
    rw [← hd]
    simp only [write, List.append_assoc]
    rfl
  have hlen : data.length = 24 + sizeofAddr clientAddress + 3 := by
    simp [hdata, length_putAddr]
    omega
  have hguid : loadInt64 data 16 = .ok serverGuid :=
    loadInt64_field (p := unconnectedMessageSequence) hdata rfl
  have haddress : (sliceFrom data 24 : Result Bytes) =
      .ok (putAddr clientAddress ++ (writeUint16 mtu ++ [if doSecurity then 1 else 0])) :=
    sliceFrom_field (p := unconnectedMessageSequence ++ writeInt64 serverGuid) (by simp [hdata])
      (by simp)
  have hmtu : loadUInt16 data (24 + sizeofAddr clientAddress) = .ok mtu :=
    loadUInt16_field (p := unconnectedMessageSequence ++ (writeInt64 serverGuid ++
      putAddr clientAddress)) (q := [if doSecurity then 1 else 0]) (by simp [hdata])
      (by simp [length_putAddr]; omega)
  have hsecurity : (index data (26 + sizeofAddr clientAddress) : Result UInt8) =
      .ok (if doSecurity then 1 else 0) :=
    index_field (p := unconnectedMessageSequence ++ (writeInt64 serverGuid ++
      (putAddr clientAddress ++ writeUint16 mtu))) (q := []) (by simp [hdata])
      (by simp [length_putAddr]; omega)
  rw [read, if_neg (by omega), hguid, ok_bind, haddress, ok_bind, addrSize_putAddr,
    if_neg (by omega), readAddr_putAddr, ok_bind]
  dsimp only
  rw [if_neg (by omega), hmtu, ok_bind, hsecurity, ok_bind]
  cases doSecurity
  · rfl
  · rfl

/-! ## Messages on a connection -/

theorem ConnectedPing.read_write (m : ConnectedPing) : read m.write.tail = .ok m := by
  have hdata : m.write.tail = [] ++ (writeInt64 m.pingTime ++ []) := by
    rw [List.append_nil]
    rfl
  have hlen : ¬ m.write.tail.length < 8 := by simp [hdata]
  have hping : loadInt64 m.write.tail 0 = .ok m.pingTime := loadInt64_field hdata rfl
  rw [read, if_neg hlen, hping, ok_bind]

theorem ConnectedPong.read_write (m : ConnectedPong) : read m.write.tail = .ok m := by
  have hdata : m.write.tail = writeInt64 m.pingTime ++ writeInt64 m.pongTime := by
    simp only [write, List.append_assoc]
    rfl
  have hlen : ¬ m.write.tail.length < 16 := by simp [hdata]
  have hping : loadInt64 m.write.tail 0 = .ok m.pingTime := loadInt64_field (p := []) hdata rfl
  have hpong : loadInt64 m.write.tail 8 = .ok m.pongTime :=
    loadInt64_field (p := writeInt64 m.pingTime) (q := []) (by simp [hdata]) (by simp)
  rw [read, if_neg hlen, hping, ok_bind, hpong, ok_bind]

theorem ConnectionRequest.read_write (m : ConnectionRequest) : read m.write.tail = .ok m := by
  obtain ⟨clientGuid, requestTime, secure⟩ := m
  generalize hd : (write ⟨clientGuid, requestTime, secure⟩).tail = data
  have hdata : data = writeUInt64 clientGuid ++ (writeInt64 requestTime ++
      [if secure then 1 else 0]) := by
    rw [← hd]
    simp only [write, List.append_assoc]
    rfl
  have hlen : ¬ data.length < 17 := by simp [hdata]
  have hguid : loadUInt64 data 0 = .ok clientGuid := loadUInt64_field (p := []) hdata rfl
  have htime : loadInt64 data 8 = .ok requestTime :=
    loadInt64_field (p := writeUInt64 clientGuid) hdata (by simp)
  have hsecure : (index data 16 : Result UInt8) = .ok (if secure then 1 else 0) :=
    index_field (p := writeUInt64 clientGuid ++ writeInt64 requestTime) (q := [])
      (by simp [hdata]) (by simp)
  rw [read, if_neg hlen, hguid, ok_bind, htime, ok_bind, hsecure, ok_bind]
  cases secure
  · rfl
  · rfl

end Ragnet
