/-
Module: Hfc.Proofs.UriSplitting
Layer: Proofs
Purpose: What `httpc_parse_uri` makes of a URI. Both blocks are printed byte for byte: the host is
  the text in front of the first slash and the path what follows, so scheme, host and path put
  together are the URI, with a slash behind it when it has none. Every failure leaves neither host
  nor path.
Imports: Hfc.Proofs.Dialling
Main exports: printedText_eq, uriHost_eq, uriPath_eq, uriScheme_spec, SplitOf, httpcParseUri_failed,
  uri_split_lossless
-/
import Hfc.Proofs.Dialling

namespace Hfc

open ByteText Numeral

abbrev slash : Byte := 47

/-! ### The two blocks

Host and path are what stands in front of the first slash and from it on. -/

/-- A block of one byte more than `n` holds the first `n` bytes of a text. -/
theorem printedText_eq {text : Bytes} (free : nul ∉ text) (isText : text.length < 2 ^ 31) {n : Nat}
    (isInt : n + 1 < 2 ^ 31) : printedText (n + 1) text = text.take n := by
  have size : toSizeT (toInt32 ((n : Int) + 1)) = n + 1 := by
    have kept := toInt32_of_small isInt
    rw [Nat.cast_succ] at kept
    rw [kept]
    exact toSizeT_natCast (show n + 1 < 2 ^ 64 by omega)
  have free' : nul ∉ text.take n := fun member => free (List.mem_of_mem_take member)
  rw [printedText, size, vsnprintf, if_neg (not_le.mpr isText), if_neg (Nat.succ_ne_zero n),
    Nat.add_sub_cancel, cstr_append_nul, cstr_of_nul_free free']

section

variable {hostPtr : Bytes}

/-- Where the first slash of a text is. -/
theorem strstr_slash (text : Bytes) :
    strstr (ascii "/") text =
      if slash ∈ text then some (text.takeWhile (· ≠ slash)).length else none :=
  strstr_singleton slash text

theorem takeWhile_of_no_slash (noSlash : slash ∉ hostPtr) :
    hostPtr.takeWhile (· ≠ slash) = hostPtr := by
  apply List.takeWhile_eq_self_iff.mpr
  intro b member
  have different : b ≠ slash := fun equal => noSlash (equal ▸ member)
  simpa using different

/-- The first bytes of a text up to its first slash. -/
theorem take_takeWhile (text : Bytes) (p : Byte → Bool) :
    text.take (text.takeWhile p).length = text.takeWhile p :=
  (List.prefix_iff_eq_take.mp (List.takeWhile_prefix p)).symm

theorem drop_takeWhile (text : Bytes) (p : Byte → Bool) :
    text.drop (text.takeWhile p).length = text.dropWhile p := by
  have behind : (text.takeWhile p ++ text.dropWhile p).drop (text.takeWhile p).length =
      text.dropWhile p := List.drop_left
  rwa [List.takeWhile_append_dropWhile] at behind

variable (free : nul ∉ hostPtr) (short : hostPtr.length + 1 < 2 ^ 31)

include free short

/-- The host is the text in front of the first slash. -/
theorem uriHost_eq : uriHost hostPtr = hostPtr.takeWhile (· ≠ slash) := by
  unfold uriHost
  rw [strstr_slash]
  by_cases hasSlash : slash ∈ hostPtr
  · rw [if_pos hasSlash]
    have bound : (hostPtr.takeWhile (· ≠ slash)).length ≤ hostPtr.length :=
      (List.takeWhile_prefix _).length_le
    dsimp only
    rw [printedText_eq free (by omega) (by omega), take_takeWhile]
  · rw [if_neg hasSlash]
    dsimp only
    rw [printedText_eq free (by omega) short, List.take_length, takeWhile_of_no_slash hasSlash]

/-- The path is the text from the first slash on, or a slash. -/
theorem uriPath_eq :
    uriPath hostPtr =
      if slash ∈ hostPtr then hostPtr.dropWhile (· ≠ slash) else [slash] := by
  unfold uriPath
  rw [strstr_slash]
  by_cases hasSlash : slash ∈ hostPtr
  · rw [if_pos hasSlash, if_pos hasSlash]
    dsimp only
    rw [drop_takeWhile]
    have bound : (hostPtr.dropWhile (· ≠ slash)).length ≤ hostPtr.length :=
      (List.dropWhile_suffix _).length_le
    have free' : nul ∉ hostPtr.dropWhile (· ≠ slash) :=
      fun member => free (List.dropWhile_subset _ member)
    rw [printedText_eq free' (by omega) (by omega), List.take_length]
  · rw [if_neg hasSlash, if_neg hasSlash]
    exact (show printedText 2 (ascii "/") = [slash] by decide)

/-- Nothing of the text is lost. -/
theorem host_append_path :
    uriHost hostPtr ++ uriPath hostPtr =
      if slash ∈ hostPtr then hostPtr else hostPtr ++ [slash] := by
  rw [uriHost_eq free short, uriPath_eq free short]
  by_cases hasSlash : slash ∈ hostPtr
  · rw [if_pos hasSlash, if_pos hasSlash, List.takeWhile_append_dropWhile]
  · rw [if_neg hasSlash, if_neg hasSlash, takeWhile_of_no_slash hasSlash]

theorem slash_notMem_host : slash ∉ uriHost hostPtr := by
  rw [uriHost_eq free short]
  intro member
  simpa using List.mem_takeWhile_imp member

theorem head?_path : (uriPath hostPtr).head? = some slash := by
  rw [uriPath_eq free short]
  by_cases hasSlash : slash ∈ hostPtr
  · rw [if_pos hasSlash]
    cases rest : hostPtr.dropWhile (· ≠ slash) with
    | nil =>
        have all := List.dropWhile_eq_nil_iff.mp rest slash hasSlash
        simp at all
    | cons b text =>
        have stops := List.head?_dropWhile_not (· ≠ slash) hostPtr
        rw [rest] at stops
        simpa using stops
  · rw [if_neg hasSlash]
    rfl

end

/-! ### The whole function

The parts put together again, for every outcome of allocation, lookup and connection. -/

/-- The schemes the client knows. -/
def SchemeOf (scheme : Bytes) (tls : Bool) : Prop :=
  (scheme = ascii "http://" ∧ tls = false) ∨ (scheme = ascii "https://" ∧ tls = true)

theorem uriScheme_spec {uri hostPtr : Bytes} {tls : Bool}
    (known : uriScheme uri = some (tls, hostPtr)) :
    ∃ scheme, SchemeOf scheme tls ∧ uri = scheme ++ hostPtr := by
  unfold uriScheme at known
  split at known
  · rename_i http
    obtain ⟨rest, rfl⟩ := List.isPrefixOf_iff_prefix.mp http
    cases known
    exact ⟨ascii "http://", .inl ⟨rfl, rfl⟩, rfl⟩
  · split at known
    · rename_i https
      obtain ⟨rest, rfl⟩ := List.isPrefixOf_iff_prefix.mp https
      cases known
      exact ⟨ascii "https://", .inr ⟨rfl, rfl⟩, rfl⟩
    · cases known

/-- A client holds the parts of a URI: a known scheme by its `enable_mbedtls`, a host without a
slash and a path that starts with one, which together are the URI, or the URI with a slash behind
it when it has none behind its scheme. -/
def SplitOf (uri : Bytes) (httpc : Httpc) : Prop :=
  ∃ scheme host path, httpc.host = some host ∧ httpc.path = some path ∧
    SchemeOf scheme httpc.enableMbedtls ∧ scheme <+: uri ∧ slash ∉ host ∧
    path.head? = some slash ∧
    scheme ++ host ++ path = if slash ∈ uri.drop scheme.length then uri else uri ++ [slash]

section

variable (env : Platform) (classify : Option Bytes → Ipv4Check)

/-- Every failure leaves a client without host and path. -/
theorem httpcParseUri_failed {httpc : Httpc} {uri : Option Bytes} {port : Bytes} {s : Setup}
    (failed : (httpcParseUri env classify httpc uri port s).ret ≠ httpcErrOk) :
    (httpcParseUri env classify httpc uri port s).httpc.host = none ∧
      (httpcParseUri env classify httpc uri port s).httpc.path = none := by
  have exits (ret : Int) (client : Httpc) (s' : Setup) :
      (parseExit ret client s').httpc.host = none ∧ (parseExit ret client s').httpc.path = none :=
    ⟨rfl, rfl⟩
  cases uri with
  | none => exact exits _ _ _
  | some uri =>
      cases scheme : uriScheme (cstr uri) with
      | none =>
          simp only [httpcParseUri, scheme]
          exact exits _ _ _
      | some parts =>
          simp only [httpcParseUri, scheme] at failed ⊢
          split
          · exact exits _ _ _
          · split
            · exact exits _ _ _
            · split
              · rename_i hostBlock pathBlock done
                rw [if_neg hostBlock, if_neg pathBlock, if_pos done] at failed
                exact absurd rfl failed
              · exact exits _ _ _

/-- Whatever the allocations, the resolver, the connect calls and the classification of the host
yield: a URI that is parsed is split without a loss, and one that is not leaves neither host nor
path. -/
theorem uri_split_lossless (httpc : Httpc) {uri : Bytes} (short : (cstr uri).length < 2 ^ 31 - 1)
    (port : Bytes) (s : Setup) :
    ((httpcParseUri env classify httpc (some uri) port s).ret = httpcErrOk →
        SplitOf (cstr uri) (httpcParseUri env classify httpc (some uri) port s).httpc) ∧
      ((httpcParseUri env classify httpc (some uri) port s).ret ≠ httpcErrOk →
        (httpcParseUri env classify httpc (some uri) port s).httpc.host = none ∧
          (httpcParseUri env classify httpc (some uri) port s).httpc.path = none) := by
  refine ⟨fun done => ?_, httpcParseUri_failed env classify⟩
  obtain ⟨tls, hostPtr, known, client⟩ := httpcParseUri_client env classify done
  obtain ⟨scheme, isScheme, split⟩ := uriScheme_spec known
  have free : nul ∉ hostPtr := by
    intro member
    exact nul_notMem_cstr uri (split ▸ List.mem_append_right scheme member)
  have length := congrArg List.length split
  rw [List.length_append] at length
  have short' : hostPtr.length + 1 < 2 ^ 31 := by omega
  rw [client]
  refine ⟨scheme, uriHost hostPtr, uriPath hostPtr, rfl, rfl, isScheme, ?_,
    slash_notMem_host free short', head?_path free short', ?_⟩
  · rw [split]
    exact List.prefix_append _ _
  · rw [split, List.drop_left, List.append_assoc, host_append_path free short']
    split_ifs
    · rfl
    · rw [List.append_assoc]

end

/-- A URI without a path, on a network where the connection is made. -/
theorem uri_split_lossless_root :
    SplitOf (ascii "http://93.184.216.34")
      (httpcParseUri { refusing with connect := fun _ _ => 0 } httpcIpv4AddressCheck
        (Httpc.plain 3) (some (ascii "http://93.184.216.34")) (ascii "80") Setup.fresh).httpc :=
  (uri_split_lossless { refusing with connect := fun _ _ => 0 } httpcIpv4AddressCheck
    (Httpc.plain 3) (show (cstr (ascii "http://93.184.216.34")).length < 2 ^ 31 - 1 by decide)
    (ascii "80") Setup.fresh).1 (by decide +kernel)

end Hfc
