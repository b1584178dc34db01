/-
Module: Hfc.Proofs.HostClassification
Layer: Proofs
Purpose: Whether `httpc_ipv4_address_check` stays inside its arrays. The part of the host in front
  of its first colon is copied to `ip_addr` whatever its length; everything else is bounded by what
  the arrays hold.
Imports: Hfc.Core.Access
Main exports: hostPart, copyLen_eq, nul_mem_ipAddr, HostInside, hostInside_iff,
  host_classification_inside_iff
-/
import Hfc.Core.Access

namespace Hfc

open ByteText

/-- The part of a host in front of its first colon. -/
def hostPart (host : Bytes) : Bytes :=
  host.takeWhile (· ≠ 58)

/-- Every write of `httpc_ipv4_address_check` is inside its array, and every array it hands to a
string function holds a terminator. -/
def HostInside (host : Bytes) : Prop :=
  (∀ write ∈ ipv4Writes (some host), write.2 < write.1.size) ∧
    ∀ string ∈ ipv4Strings (some host), nul ∈ string.2

instance (host : Bytes) : Decidable (HostInside host) :=
  inferInstanceAs (Decidable (_ ∧ _))

/-- The part in front of the first colon fits `ip_addr` with a terminator, or the host is too long
to be looked at. -/
def FitsIpAddr (host : Bytes) : Prop :=
  (hostPart host).length < ipAddrSize ∨ 15 + 5 + 1 < host.length

section

variable {host : Bytes}

/-- That part is what is copied. -/
theorem copyLen_eq : ipv4CopyLen host = (hostPart host).length := by
  unfold ipv4CopyLen
  rw [show ascii ":" = [58] from rfl, strstr_singleton]
  by_cases colon : 58 ∈ host
  · rw [if_pos colon]
    rfl
  · rw [if_neg colon]
    have whole : hostPart host = host := by
      apply List.takeWhile_eq_self_iff.mpr
      intro b member
      have different : b ≠ 58 := fun equal => colon (equal ▸ member)
      simpa using different
    rw [whole]

theorem copyLen_le : ipv4CopyLen host ≤ host.length := by
  rw [copyLen_eq]
  exact (List.takeWhile_prefix _).length_le

/-- `strncpy` of no more than a whole string. -/
theorem strncpy_eq {src : Bytes} (free : nul ∉ src) (mem : Bytes) {n : Nat}
    (fits : n ≤ src.length) :
    strncpy mem src n = patch mem 0 (src.take n) := by
  rw [strncpy, cstr_of_nul_free free, Nat.sub_eq_zero_of_le fits, List.replicate_zero,
    List.append_nil]

theorem nul_mem_ipAddr (free : nul ∉ host) :
    nul ∈ ipv4IpAddr host ↔ (hostPart host).length < ipAddrSize := by
  have part : nul ∉ host.take (ipv4CopyLen host) := fun member => free (List.mem_of_mem_take member)
  rw [ipv4IpAddr, strncpy_eq free _ copyLen_le, nul_mem_patch_blank part, List.length_take,
    Nat.min_eq_left copyLen_le, copyLen_eq]

theorem portText_spec (free : nul ∉ host) :
    nul ∉ ipv4PortText host ∧ (ipv4PortText host).length < ipPortSize := by
  unfold ipv4PortText
  cases strstr (ascii ":") host with
  | none => simp [ipPortSize]
  | some ptr =>
      dsimp only
      split
      · rename_i short
        exact ⟨fun member => free (List.mem_of_mem_drop member), Nat.lt_succ_of_le short⟩
      · simp [ipPortSize]

theorem nul_mem_ipPort (free : nul ∉ host) : nul ∈ ipv4IpPort host := by
  obtain ⟨noNul, short⟩ := portText_spec free
  rw [ipv4IpPort, strncpy_eq noNul _ le_rfl, List.take_length, nul_mem_patch_blank noNul]
  exact short

@[simp] theorem length_strncpy (mem src : Bytes) (n : Nat) :
    (strncpy mem src n).length = mem.length := by
  simp [strncpy]

theorem length_ipAddr : (ipv4IpAddr host).length = ipAddrSize := by
  simp [ipv4IpAddr]

theorem length_ipPort : (ipv4IpPort host).length = ipPortSize := by
  simp [ipv4IpPort]

/-- Writes of no more bytes than an array has. -/
theorem writes_inside {array : Ipv4Array} {n : Nat} (fits : n ≤ array.size) :
    ∀ write ∈ (List.range n).map (array, ·), write.2 < write.1.size := by
  intro write member
  obtain ⟨i, inRange, rfl⟩ := List.mem_map.mp member
  exact (List.mem_range.mp inRange).trans_le fits

theorem hostInside_iff (free : nul ∉ host) : HostInside host ↔ FitsIpAddr host := by
  unfold HostInside ipv4Writes ipv4Strings FitsIpAddr
  dsimp only
  by_cases long : host.length > 15 + 5 + 1
  · simp [show 15 + 5 + 1 < host.length from long]
  · rw [if_neg long, if_neg long, or_iff_left long, ← nul_mem_ipAddr free]
    constructor
    · rintro ⟨-, strings⟩
      exact strings _ List.mem_cons_self
    · intro terminated
      have addrBound := length_cstr_le (ipv4IpAddr host)
      have portBound := length_cstr_le (ipv4IpPort host)
      rw [length_ipAddr] at addrBound
      rw [length_ipPort] at portBound
      have copied := (nul_mem_ipAddr free).mp terminated
      have portShort := (portText_spec free).2
      refine ⟨?_, ?_⟩
      · simp only [List.forall_mem_append]
        refine ⟨⟨⟨⟨?_, ?_⟩, ?_⟩, ?_⟩, ?_⟩
        · apply writes_inside
          rw [copyLen_eq]
          exact copied.le
        · apply writes_inside
          exact portShort.le
        · apply writes_inside
          exact addrBound.trans (by decide)
        · split
          · apply writes_inside
            exact portBound.trans (by decide)
          · intro write member
            rw [List.mem_singleton.mp member]
            decide
        · intro write member
          obtain ⟨i, dot, rfl⟩ := List.mem_map.mp member
          have inText := List.mem_range.mp (List.mem_filter.mp dot).1
          exact inText.trans_le addrBound
      · intro string member
        rcases List.mem_pair.mp member with rfl | rfl
        · exact terminated
        · exact nul_mem_ipPort free

end

/-- A host that is printed into its block is a string. -/
theorem uriHost_free (hostPtr : Bytes) : nul ∉ uriHost hostPtr := by
  unfold uriHost printedText
  cases strstr (ascii "/") hostPtr with
  | none => exact nul_notMem_cstr _
  | some off => exact nul_notMem_cstr _

/-- Whatever text stands behind the scheme of a URI: the classification of its host stays inside its
arrays if and only if the part in front of the first colon has at most fifteen bytes or the host
more than twenty-one. -/
theorem host_classification_inside_iff (hostPtr : Bytes) :
    HostInside (uriHost hostPtr) ↔ FitsIpAddr (uriHost hostPtr) :=
  hostInside_iff (uriHost_free hostPtr)

/-- The host of the chunked example, which has seventeen bytes. -/
def chunkHostPtr : Bytes :=
  ascii "www.httpwatch.com/httpgallery/chunked/chunkedimage.aspx"

/-- That host is written past the end of `ip_addr`. -/
theorem chunk_host_overflows :
    uriHost chunkHostPtr = ascii "www.httpwatch.com" ∧ ¬ HostInside (uriHost chunkHostPtr) ∧
      (.ipAddr, 16) ∈ ipv4Writes (some (uriHost chunkHostPtr)) := by
  decide +kernel

end Hfc
