import Ragnet.Listener

/-!
# What a cookie depends on

The bytes that the two copies of `cookie` hash, and which salts and addresses they tell apart.
-/

namespace Ragnet

open Wire

inductive IpAddr where
  | v4 (octets : Octets 4)
  | v6 (octets : Octets 16)
deriving DecidableEq

namespace SocketAddr

def ip : SocketAddr → IpAddr
  | v4 octets _ => .v4 octets
  | v6 octets _ _ _ => .v6 octets

/-- The octets tell the addresses apart, as their number tells the two kinds. -/
theorem octets_inj {addr addr' : SocketAddr} : addr.octets = addr'.octets ↔ addr.ip = addr'.ip := by
  constructor
  · intro h
    have hlen := congrArg List.length h
    cases addr with
    | v4 o p =>
        cases addr' with
        | v4 o' p' => exact congrArg IpAddr.v4 (Subtype.ext h)
        | v6 o' p' f' s' =>
            exact absurd (o.property.symm.trans (hlen.trans o'.property)) (by decide)
    | v6 o p f s =>
        cases addr' with
        | v4 o' p' =>
            exact absurd (o.property.symm.trans (hlen.trans o'.property)) (by decide)
        | v6 o' p' f' s' => exact congrArg IpAddr.v6 (Subtype.ext h)
  · intro h
    cases addr <;> cases addr' <;> cases h <;> rfl

end SocketAddr

/-! ## The copy in the handler -/

/-- `data[i..i + src.len()].copy_from_slice(src)`. -/
def copyFromSlice (data : Bytes) (i : Nat) (src : Bytes) : Bytes :=
  data.take i ++ src ++ data.drop (i + src.length)

/-- The fields of `ListenerConnectionHandler` that `cookie` reads. -/
structure ListenerConnectionHandler where
  cookieSalt : UInt32
  disableCookies : Bool

def ListenerConnectionHandler.cookie (hash : Bytes → UInt32) (self : ListenerConnectionHandler)
    (addr : SocketAddr) : UInt32 :=
  if self.disableCookies then 0
  else
    let data := List.replicate 6 0
    let data := copyFromSlice data 0 (leBytes 4 self.cookieSalt.toNat)
    -- overwrites first 2 bytes of salt
    let data := copyFromSlice data 0 (leBytes 2 addr.port.toNat)
    let data := data ++ addr.octets
    hash data

namespace Listener

/-- The handler that `handle_open_connection_request_2` creates for a connection. -/
def connectionHandler (self : Listener) : ListenerConnectionHandler :=
  ⟨self.cookieSalt, self.config.disableCookies⟩

/-- The two copies agree: the second write leaves the upper half of the first one. -/
theorem connectionHandler_cookie (hash : Bytes → UInt32) (self : Listener) (addr : SocketAddr) :
    self.connectionHandler.cookie hash addr = self.cookie hash addr := by
  have hsalt : (leBytes 4 self.cookieSalt.toNat).length = 4 := length_leBytes 4 _
  have hport : (leBytes 2 addr.port.toNat).length = 2 := length_leBytes 2 _
  have hfirst : copyFromSlice (List.replicate 6 0) 0 (leBytes 4 self.cookieSalt.toNat) =
      leBytes 4 self.cookieSalt.toNat ++ [0, 0] := by
    rw [copyFromSlice, hsalt]
    rfl
  have hsecond : copyFromSlice (leBytes 4 self.cookieSalt.toNat ++ [0, 0]) 0
      (leBytes 2 addr.port.toNat) =
        leBytes 2 addr.port.toNat ++ (leBytes 4 self.cookieSalt.toNat).drop 2 ++ [0, 0] := by
    rw [copyFromSlice, hport, List.take_zero, List.nil_append, Nat.zero_add,
      List.drop_append_of_le_length (by rw [hsalt]; decide), List.append_assoc]
  show (if self.config.disableCookies then 0 else hash (copyFromSlice (copyFromSlice
    (List.replicate 6 0) 0 (leBytes 4 self.cookieSalt.toNat)) 0 (leBytes 2 addr.port.toNat) ++
      addr.octets)) = _
  rw [hfirst, hsecond, Listener.cookie, cookieData]

/-! ## What the hashed bytes tell apart -/

/-- The salts, the ports and the IP addresses are the same. -/
def SameInputs (self self' : Listener) (addr addr' : SocketAddr) : Prop :=
  self.cookieSalt = self'.cookieSalt ∧ addr.port = addr'.port ∧ addr.ip = addr'.ip

/-- The salts differ in their lower halves only, behind the same port and IP address. -/
def LowHalvesDiffer (self self' : Listener) (addr addr' : SocketAddr) : Prop :=
  self.cookieSalt ≠ self'.cookieSalt ∧
    self.cookieSalt.toNat / 2 ^ 16 = self'.cookieSalt.toNat / 2 ^ 16 ∧
    addr.port = addr'.port ∧ addr.ip = addr'.ip

variable {self self' : Listener} {addr addr' : SocketAddr}

/-- The hashed bytes keep the port, the address and the upper half of the salt. -/
theorem cookieData_eq_iff :
    self.cookieData addr = self'.cookieData addr' ↔
      self.cookieSalt.toNat / 2 ^ 16 = self'.cookieSalt.toNat / 2 ^ 16 ∧
        addr.port = addr'.port ∧ addr.ip = addr'.ip := by
  have hsalt (l : Listener) :
      (leBytes 4 l.cookieSalt.toNat).drop 2 = leBytes 2 (l.cookieSalt.toNat / 2 ^ 16) :=
    drop_leBytes 2 2 _
  have hhalf (l : Listener) : l.cookieSalt.toNat / 2 ^ 16 < 256 ^ 2 :=
    Nat.div_lt_of_lt_mul l.cookieSalt.toNat_lt
  have hports : leBytes 2 addr.port.toNat = leBytes 2 addr'.port.toNat ↔ addr.port = addr'.port :=
    (leBytes_inj addr.port.toNat_lt addr'.port.toNat_lt).trans UInt16.toNat_inj
  rw [cookieData, cookieData, hsalt, hsalt, ← leBytes_inj (hhalf self) (hhalf self'), ← hports,
    ← SocketAddr.octets_inj]
  constructor
  · intro h
    obtain ⟨h, hoctets⟩ := List.append_inj h (by simp)
    obtain ⟨h, -⟩ := List.append_inj h (by simp)
    obtain ⟨hport, hupper⟩ := List.append_inj h (by simp)
    exact ⟨hupper, hport, hoctets⟩
  · rintro ⟨hupper, hport, hoctets⟩
    rw [hupper, hport, hoctets]

/-- **The cookie tells salt and client apart unless only lower halves differ.**  With cookies
enabled, the bytes that `cookie` hashes, and with them the cookies under every hash, are the same
for the same salt, port and IP address only, exactly when the two salts do not differ in their lower
halves alone.  The copy in the handler computes the same cookie. -/
theorem cookie_distinguishes_iff (self self' : Listener) (addr addr' : SocketAddr)
    (hself : self.config.disableCookies = false) (hself' : self'.config.disableCookies = false) :
    ((self.cookieData addr = self'.cookieData addr' → SameInputs self self' addr addr') ↔
        ¬ LowHalvesDiffer self self' addr addr') ∧
      (((∀ hash, self.cookie hash addr = self'.cookie hash addr') →
          SameInputs self self' addr addr') ↔ ¬ LowHalvesDiffer self self' addr addr') ∧
      ∀ hash, self.connectionHandler.cookie hash addr = self.cookie hash addr := by
  have hdata : (self.cookieData addr = self'.cookieData addr' →
      SameInputs self self' addr addr') ↔ ¬ LowHalvesDiffer self self' addr addr' := by
    rw [cookieData_eq_iff, SameInputs, LowHalvesDiffer]
    tauto
  have hcookie : (∀ hash, self.cookie hash addr = self'.cookie hash addr') ↔
      self.cookieData addr = self'.cookieData addr' := by
    have hvalue (hash : Bytes → UInt32) : self.cookie hash addr = self'.cookie hash addr' ↔
        hash (self.cookieData addr) = hash (self'.cookieData addr') := by
      rw [cookie, cookie, hself, hself']
      rfl
    simp only [hvalue]
    refine ⟨fun h ↦ ?_, fun h hash ↦ congrArg hash h⟩
    -- a hash that singles the bytes out
    have hone := h fun data ↦ if data = self.cookieData addr then 1 else 0
    simp only [if_true] at hone
    by_contra hne
    rw [if_neg (Ne.symm hne)] at hone
    cases hone
  exact ⟨hdata, by rwa [hcookie], fun hash ↦ connectionHandler_cookie hash self addr⟩

/-- The same address under two salts, of which only the lower halves differ. -/
theorem cookie_distinguishes_lower :
    ((cookieData (new .default 0 1) .unspecified = cookieData (new .default 0 2) .unspecified →
        SameInputs (new .default 0 1) (new .default 0 2) .unspecified .unspecified) ↔
        ¬ LowHalvesDiffer (new .default 0 1) (new .default 0 2) .unspecified .unspecified) ∧
      (((∀ hash, cookie hash (new .default 0 1) .unspecified =
            cookie hash (new .default 0 2) .unspecified) →
          SameInputs (new .default 0 1) (new .default 0 2) .unspecified .unspecified) ↔
        ¬ LowHalvesDiffer (new .default 0 1) (new .default 0 2) .unspecified .unspecified) ∧
      ∀ hash, (connectionHandler (new .default 0 1)).cookie hash .unspecified =
        cookie hash (new .default 0 1) .unspecified :=
  cookie_distinguishes_iff (new .default 0 1) (new .default 0 2) .unspecified .unspecified rfl rfl

/-- The salts 1 and 2 give an address the same bytes to hash, and the same cookie. -/
theorem cookie_forgets_salt :
    cookieData (new .default 0 1) .unspecified = cookieData (new .default 0 2) .unspecified ∧
      (∀ hash, cookie hash (new .default 0 1) .unspecified =
        cookie hash (new .default 0 2) .unspecified) ∧
      (new .default 0 1).cookieSalt ≠ (new .default 0 2).cookieSalt := by
  have hdata :
      cookieData (new .default 0 1) .unspecified = cookieData (new .default 0 2) .unspecified :=
    cookieData_eq_iff.mpr ⟨by decide, rfl, rfl⟩
  refine ⟨hdata, fun hash ↦ ?_, by decide⟩
  show hash (cookieData (new .default 0 1) .unspecified) = _
  rw [hdata]
  rfl

end Listener

end Ragnet
