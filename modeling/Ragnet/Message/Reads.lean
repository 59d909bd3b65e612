import Ragnet.Message.Connected
import Ragnet.Message.Unconnected

/-!
# Reading messages from any bytes

No reader of a message panics, whatever the bytes: each checks the length before it indexes.
`read_addr` does not check; its callers compare the length with `addr_size` first.
-/

namespace Ragnet

open Checked Wire

/-- A reader never panics. -/
abbrev Safe {α : Type} (read : Bytes → Result α) : Prop := ∀ data, NoPanic (read data)

/-! ## Addresses -/

/-- An address takes up as many bytes as `addr_size` says. -/
theorem readAddr_size {buf : Bytes} {addr : SocketAddr} {n : Nat}
    (h : readAddr buf = .ok (addr, n)) : n = addrSize buf := by
  rw [readAddr] at h
  rw [addrSize]
  split at h
  · next h4 =>
    rw [if_pos h4]
    cases ho : loadOctets 4 buf 1 with
    | error e =>
        rw [ho] at h
        cases h
    | ok octets =>
        rw [ho, ok_bind] at h
        cases hp : loadUInt16 buf 5 with
        | error e =>
            rw [hp] at h
            cases h
        | ok port =>
            rw [hp, ok_bind] at h
            exact (congrArg Prod.snd (Except.ok.inj h)).symm
  · next h4 =>
    rw [if_neg h4]
    cases hp : loadUInt16 buf 3 with
    | error e =>
        rw [hp] at h
        cases h
    | ok port =>
        rw [hp, ok_bind] at h
        cases ho : loadOctets 16 buf 9 with
        | error e =>
            rw [ho] at h
            cases h
        | ok octets =>
            rw [ho, ok_bind] at h
            exact (congrArg Prod.snd (Except.ok.inj h)).symm

theorem readAddr_noPanic {buf : Bytes} (h : addrSize buf ≤ buf.length) :
    NoPanic (readAddr buf) := by
  rw [addrSize] at h
  rw [readAddr]
  split
  · next h4 =>
    rw [if_pos h4, sizeofAddr4] at h
    refine .bind (loadOctets_noPanic ?_) fun octets _ ↦
      .bind (loadUInt16_noPanic h) fun port _ ↦ .ok _
    omega
  · next h4 =>
    rw [if_neg h4, sizeofAddr6] at h
    refine .bind (loadUInt16_noPanic ?_) fun port _ ↦
      .bind (loadOctets_noPanic ?_) fun octets _ ↦ .ok _
    · omega
    · omega

/-! ## Messages before a connection -/

theorem UnconnectedPing.read_safe : Safe read := by
  intro data
  refine .ite (fun _ ↦ .error _) fun h ↦ .bind (loadInt64_noPanic ?_) fun _ _ ↦
    .bind (loadInt64_noPanic ?_) fun _ _ ↦ .ok _
  · omega
  · omega

theorem UnconnectedPong.read_safe : Safe read := by
  intro data
  refine .ite (fun _ ↦ .error _) fun h ↦ .bind (loadInt64_noPanic ?_) fun _ _ ↦
    .bind (loadInt64_noPanic ?_) fun _ _ ↦ .bind (loadUInt16_noPanic ?_) fun dataLen _ ↦
    .ite (fun _ ↦ .error _) fun h' ↦ .bind (loadOctets_noPanic ?_) fun _ _ ↦ .ok _
  · omega
  · omega
  · omega
  · omega

theorem OpenConnectionRequest1.read_safe : Safe read := by
  intro data
  refine .ite (fun _ ↦ .error _) fun h ↦ .bind (.index ?_) fun _ _ ↦ .ok _
  omega

theorem IncompatibleProtocolVersion.read_safe : Safe read := by
  intro data
  refine .ite (fun _ ↦ .error _) fun h ↦ .bind (.index ?_) fun _ _ ↦
    .bind (loadInt64_noPanic ?_) fun _ _ ↦ .ok _
  · omega
  · omega

theorem OpenConnectionReply1.readCookie_safe (serverHasSecurity : Bool) :
    Safe (readCookie · serverHasSecurity) := by
  intro data
  refine .ite (fun _ ↦ .ite (fun _ ↦ .error _) fun h ↦ .bind (loadUInt32_noPanic ?_) fun _ _ ↦
    .ok _) fun _ ↦ .ok _
  omega

theorem OpenConnectionReply1.read_safe : Safe read := by
  intro data
  refine .ite (fun _ ↦ .error _) fun h ↦ .bind (loadInt64_noPanic ?_) fun _ _ ↦
    .bind (.index ?_) fun security _ ↦ .bind (readCookie_safe _ data) fun cookie _ ↦
    .ite (fun _ ↦ .error _) fun h' ↦ .bind (loadUInt16_noPanic ?_) fun _ _ ↦ .ok _
  · omega
  · omega
  · omega

theorem OpenConnectionRequest2.readCookie_noPanic {self : OpenConnectionRequest2} {data : Bytes}
    (h : 16 + self.cookieOffset ≤ data.length) : NoPanic (self.readCookie data) := by
  rw [cookieOffset] at h
  refine .ite (fun hs ↦ loadUInt32_noPanic ?_) fun _ ↦ .ok _
  rw [if_pos hs] at h
  omega

/-- Whether the request is read with or without a cookie. -/
theorem OpenConnectionRequest2.read_safe (self : OpenConnectionRequest2) : Safe self.read := by
  intro data
  refine .ite (fun _ ↦ .error _) fun h ↦ .bind (readCookie_noPanic (Nat.le_of_not_lt h)) fun _ _ ↦
    .bind (.sliceFrom (Nat.le_of_not_lt h)) fun address haddress ↦
    .ite (fun _ ↦ .error _) fun h' ↦ .bind (readAddr_noPanic ?_) fun serverAddress _ ↦
    .ite (fun _ ↦ .error _) fun h'' ↦ .bind (loadUInt16_noPanic ?_) fun _ _ ↦
    .bind (loadUInt64_noPanic ?_) fun _ _ ↦ .ok _
  · rw [sliceFrom_of_le (Nat.le_of_not_lt h)] at haddress
    obtain rfl := Except.ok.inj haddress
    rw [List.length_drop]
    omega
  · omega
  · omega

theorem OpenConnectionReply2.read_safe : Safe read := by
  intro data
  refine .ite (fun _ ↦ .error _) fun h ↦ .bind (loadInt64_noPanic ?_) fun _ _ ↦
    .bind (.sliceFrom (Nat.le_of_not_lt h)) fun address haddress ↦
    .ite (fun _ ↦ .error _) fun h' ↦ .bind (readAddr_noPanic ?_) fun clientAddress _ ↦
    .ite (fun _ ↦ .error _) fun h'' ↦ .bind (loadUInt16_noPanic ?_) fun _ _ ↦
    .bind (.index ?_) fun _ _ ↦ .ok _
  · omega
  · rw [sliceFrom_of_le (Nat.le_of_not_lt h)] at haddress
    obtain rfl := Except.ok.inj haddress
    rw [List.length_drop]
    omega
  · omega
  · omega

/-! ## Messages on a connection -/

theorem ConnectedPing.read_safe : Safe read := by
  intro data
  refine .ite (fun _ ↦ .error _) fun h ↦ .bind (loadInt64_noPanic ?_) fun _ _ ↦ .ok _
  omega

theorem ConnectedPong.read_safe : Safe read := by
  intro data
  refine .ite (fun _ ↦ .error _) fun h ↦ .bind (loadInt64_noPanic ?_) fun _ _ ↦
    .bind (loadInt64_noPanic ?_) fun _ _ ↦ .ok _
  · omega
  · omega

theorem ConnectionRequest.read_safe : Safe read := by
  intro data
  refine .ite (fun _ ↦ .error _) fun h ↦ .bind (loadUInt64_noPanic ?_) fun _ _ ↦
    .bind (loadInt64_noPanic ?_) fun _ _ ↦ .bind (.index ?_) fun _ _ ↦ .ok _
  · omega
  · omega
  · omega

variable (build : Build)

/-- The offset of the loop stays within the bytes. -/
theorem readSystemAddresses_noPanic {data : Bytes} {kept : List SocketAddr} {offset : Nat}
    (h : offset ≤ data.length) :
    NoPanic (readSystemAddresses build data kept offset) ∧
      ∀ addresses, readSystemAddresses build data kept offset = .ok addresses →
        addresses.2 ≤ data.length := by
  induction kept generalizing offset with
  | nil =>
      refine ⟨.ok _, fun addresses haddresses ↦ ?_⟩
      obtain rfl := Except.ok.inj haddresses
      exact h
  | cons systemAddr kept ih =>
      have hlen : (data.drop offset).length = data.length - offset := List.length_drop
      rw [readSystemAddresses, sub_of_le build 64 h, ok_bind, sliceFrom_of_le h, ok_bind]
      split
      · refine ⟨.ok _, fun addresses haddresses ↦ ?_⟩
        obtain rfl := Except.ok.inj haddresses
        exact h
      split
      · exact ⟨.error _, fun addresses haddresses ↦ by cases haddresses⟩
      next hsize =>
      have hsafe := @readAddr_noPanic (data.drop offset) (by omega)
      cases haddr : readAddr (data.drop offset) with
      | error e =>
          rw [haddr] at hsafe
          exact ⟨fun he ↦ hsafe (error_eq_iff.mp he),
            fun addresses haddresses ↦ by cases haddresses⟩
      | ok addr =>
          have hn : addr.2 = addrSize (data.drop offset) := readAddr_size haddr
          obtain ⟨hrest, hle⟩ := @ih (offset + addr.2) (by omega)
          rw [ok_bind]
          refine ⟨.bind hrest fun _ _ ↦ .ok _, fun addresses haddresses ↦ ?_⟩
          cases hr : readSystemAddresses build data kept (offset + addr.2) with
          | error e =>
              rw [hr] at haddresses
              cases haddresses
          | ok rest =>
              rw [hr, ok_bind] at haddresses
              obtain rfl := Except.ok.inj haddresses
              exact hle rest hr

theorem Trailer.read_noPanic {data : Bytes} {offset : Nat} (h : offset ≤ data.length) :
    NoPanic (read build data offset) := by
  obtain ⟨hsafe, hle⟩ :=
    @readSystemAddresses_noPanic build data defaultSystemAddresses.val offset h
  refine .bind hsafe fun addresses haddresses ↦ .bind (.sub build 64 (hle addresses haddresses))
    fun left hleft ↦ .ite (fun _ ↦ .error _) fun h' ↦ .bind (loadInt64_noPanic ?_) fun _ _ ↦
    .bind (loadInt64_noPanic ?_) fun _ _ ↦ .ok _
  all_goals
    have := hle addresses haddresses
    rw [sub_of_le build 64 this] at hleft
    have := Except.ok.inj hleft
    omega

theorem ConnectionRequestAccepted.read_safe : Safe (read build) := by
  intro data
  refine .ite (fun _ ↦ .error _) fun h ↦ .bind (readAddr_noPanic (Nat.le_of_not_lt h))
    fun clientAddress _ ↦ .ite (fun _ ↦ .error _) fun h' ↦ .bind (loadUInt16_noPanic ?_) fun _ _ ↦
    .bind (Trailer.read_noPanic build ?_) fun _ _ ↦ .ok _
  · omega
  · omega

theorem NewIncomingConnection.read_safe : Safe (read build) := by
  intro data
  refine .ite (fun _ ↦ .error _) fun h ↦ .bind (readAddr_noPanic (Nat.le_of_not_lt h))
    fun serverAddress haddr ↦ .bind (Trailer.read_noPanic build ?_) fun _ _ ↦ .ok _
  have hn : serverAddress.2 = addrSize data := readAddr_size haddr
  omega

end Ragnet
