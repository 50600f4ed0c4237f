/- module: MyTelnet/Stack/EmittedChecksums
   scope: proofs
   digest: The two checksums of a sent frame, as a receiver verifies them. -/

import MyTelnet.Stack.RoundTrip

set_option autoImplicit false
set_option relaxedAutoImplicit false

namespace MyTelnet.Stack.EmittedChecksums

open MyTelnet.Base.ByteOrder MyTelnet.Base.OnesComplement MyTelnet.Wire.Checksum
open MyTelnet.Wire.Layers MyTelnet.Stack.State MyTelnet.Stack.Send MyTelnet.Stack.Frames
open MyTelnet.Stack.RoundTrip

/-- The pseudo header that RFC 793 puts before the segment, as the bytes of the wire. -/
def rfcPseudoHeader (srcIp dstIp : UInt32) (tcpLength : Nat) : Bytes :=
  [byte32 3 srcIp, byte32 2 srcIp, byte32 1 srcIp, byte32 0 srcIp, byte32 3 dstIp, byte32 2 dstIp,
    byte32 1 dstIp, byte32 0 dstIp, 0, 6, UInt8.ofNat (tcpLength / 256), UInt8.ofNat tcpLength]

/-- What a receiver checks: both one's-complement sums, check fields included, are all ones. -/
structure ChecksumsVerify (conn : TcpConnection) (frame : Bytes) : Prop where
  ip : onesSum ((frame.drop 14).take 20) = 0xFFFF
  tcp : onesSum (rfcPseudoHeader conn.localIp conn.remoteIp (frame.drop 34).length ++
    (frame.drop 34).take 20 ++ padded (frame.drop 54)) = 0xFFFF

section Emitted

variable (s : TcpStack) (conn : TcpConnection) (id flags : UInt16) (payload : Bytes)

/-- The header that `build_ip_header` sums. -/
def summedIpHeader : Bytes :=
  ipHeaderBytes conn.localIp conn.remoteIp (UInt16.ofNat (40 + payload.length)) 6 id 0

/-- The accumulator of `calculate_checksum_new` in `build_ip_header`. -/
def ipAccumulator : UInt32 := sumWords (summedIpHeader conn id payload) 0

def summedPseudoHeader : Bytes :=
  pseudoHeader conn.localIp conn.remoteIp (UInt16.ofNat (20 + payload.length))

theorem summedPseudoHeader_even : (summedPseudoHeader conn payload).length % 2 = 0 := by
  have hlen : (summedPseudoHeader conn payload).length = 12 := rfl
  rw [hlen]

/-- The accumulator of `calculate_tcp_checksum` in `send_tcp_packet`. -/
def tcpAccumulator : UInt32 :=
  tcpSum (summedPseudoHeader conn payload) (tcpHeaderBytes conn flags 0) payload

theorem tcpHeaderLen_tcpHeaderBytes (check : UInt16) :
    tcpHeaderLen (tcpHeaderBytes conn flags check) = 20 := by
  let w : UInt16 := htons (((5 : UInt16) <<< 12) ||| (flags &&& 0x3F))
  show max 20 (((ntohs (word16 (lo16 w) (hi16 w)) >>> 12) &&& 0xF).toNat * 4) = 20
  rw [word16_lo_hi, ntohs_htons, offset_shift]
  rfl

theorem tcpHeaderBytes_even : (tcpHeaderBytes conn flags 0).length % 2 = 0 := by
  have hlen : (tcpHeaderBytes conn flags 0).length = 20 := rfl
  rw [hlen]

/-- The frame carries the complements of the two folded accumulators. -/
theorem buildFrame_accumulators :
    buildFrame s conn id flags payload = frameWith s conn id flags payload
      (htons (~~~ foldCarries (ipAccumulator conn id payload)).toUInt16)
      (htons (~~~ foldCarries (tcpAccumulator conn flags payload)).toUInt16) := by
  have hcleared : ((tcpHeaderBytes conn flags 0).set 16 0).set 17 0 =
      tcpHeaderBytes conn flags 0 := rfl
  rw [buildFrame_eq, calculateTcpChecksum_fst, tcpHeaderLen_tcpHeaderBytes, hcleared]
  rfl

theorem store16_htons (x : UInt16) : store16 (htons x) = [hi16 x, lo16 x] := by
  simp [store16, htons]

theorem toNat_hi_lo (x : UInt16) : 256 * (hi16 x).toNat + (lo16 x).toNat = x.toNat := by
  rw [← toNat_ntohs_word16, ← htons]
  exact congrArg UInt16.toNat (ntohs_htons x)

theorem ipAccumulator_toNat :
    (ipAccumulator conn id payload).toNat = wordSum (summedIpHeader conn id payload) := by
  have hle := wordSum_le (summedIpHeader conn id payload)
  have hlen : (summedIpHeader conn id payload).length = 20 := rfl
  rw [ipAccumulator, sumWords_toNat _ 0 (by simp only [UInt32.reduceToNat]; omega)]
  exact Nat.zero_add _

/-- What the second accumulator is to hold: the sum over its three parts, with no wrap. -/
def tcpWords : Nat :=
  wordSum (summedPseudoHeader conn payload) + wordSum (tcpHeaderBytes conn flags 0) +
    wordSum payload

theorem tcpWords_lt (hlen : payload.length ≤ 65495) : tcpWords conn flags payload < 2 ^ 32 := by
  have hpseudo := wordSum_le (summedPseudoHeader conn payload)
  have hheader := wordSum_le (tcpHeaderBytes conn flags 0)
  have hpayload := wordSum_le payload
  have hlen₁ : (summedPseudoHeader conn payload).length = 12 := rfl
  have hlen₂ : (tcpHeaderBytes conn flags 0).length = 20 := rfl
  unfold tcpWords
  omega

theorem tcpAccumulator_toNat (hlen : payload.length ≤ 65495) :
    (tcpAccumulator conn flags payload).toNat = tcpWords conn flags payload :=
  tcpSum_toNat (summedPseudoHeader_even conn payload) (tcpHeaderBytes_even conn flags)
    (tcpWords_lt conn flags payload hlen)

/-- The memory image of the pseudo header is the one on the wire. -/
theorem summedPseudoHeader_eq (hlen : payload.length ≤ 65495) :
    summedPseudoHeader conn payload =
      rfcPseudoHeader conn.localIp conn.remoteIp (20 + payload.length) := by
  have hnat : (UInt16.ofNat (20 + payload.length)).toNat = 20 + payload.length :=
    UInt16.toNat_ofNat_of_lt (by simp only [UInt16.size]; omega)
  rw [summedPseudoHeader, pseudoHeader, store16_htons, hi16, lo16, hnat]
  simp [store32, htonl, rfcPseudoHeader]

theorem ip_verifies :
    onesSum (((buildFrame s conn id flags payload).drop 14).take 20) = 0xFFFF := by
  have hcheck := complement_toNat (ipAccumulator conn id payload)
  rw [ipAccumulator_toNat] at hcheck
  rw [buildFrame_accumulators]
  generalize (~~~ foldCarries (ipAccumulator conn id payload)).toUInt16 = check at hcheck ⊢
  -- the check field lies between the tenth byte and the two addresses
  let pre : Bytes := [0x45, 0] ++ store16 (htons (UInt16.ofNat (40 + payload.length))) ++
    store16 (htons id) ++ store16 0 ++ [64, 6]
  let post : Bytes := store32 (htonl conn.localIp) ++ store32 (htonl conn.remoteIp)
  have hpre : pre.length % 2 = 0 := by
    have hpreLen : pre.length = 10 := rfl
    rw [hpreLen]
  have hcut : ∀ tcpCheck, ((frameWith s conn id flags payload (htons check) tcpCheck).drop 14).take
      20 = pre ++ hi16 check :: lo16 check :: post := by
    intro tcpCheck
    have hstore := store16_htons check
    show [0x45, 0] ++ store16 (htons (UInt16.ofNat (40 + payload.length))) ++
      store16 (htons id) ++ store16 0 ++ [64, 6] ++ store16 (htons check) ++
      store32 (htonl conn.localIp) ++ store32 (htonl conn.remoteIp) = _
    rw [hstore]
    rfl
  have hsum : summedIpHeader conn id payload = pre ++ 0 :: 0 :: post := rfl
  rw [hcut]
  apply onesSum_checked post hpre
  rw [toNat_hi_lo, hcheck, hsum]

theorem tcp_verifies (hlen : payload.length ≤ 65495) :
    onesSum (rfcPseudoHeader conn.localIp conn.remoteIp
        ((buildFrame s conn id flags payload).drop 34).length ++
      ((buildFrame s conn id flags payload).drop 34).take 20 ++
      padded ((buildFrame s conn id flags payload).drop 54)) = 0xFFFF := by
  have hcheck := complement_toNat (tcpAccumulator conn flags payload)
  rw [tcpAccumulator_toNat conn flags payload hlen] at hcheck
  rw [buildFrame_accumulators]
  generalize (~~~ foldCarries (tcpAccumulator conn flags payload)).toUInt16 = check at hcheck ⊢
  generalize htons (~~~ foldCarries (ipAccumulator conn id payload)).toUInt16 = ipCheck
  let fields : Bytes := store16 (htons conn.localPort) ++ store16 (htons conn.remotePort) ++
    store32 (htonl conn.seqNum) ++ store32 (htonl conn.ackNum) ++
    store16 (htons (((5 : UInt16) <<< 12) ||| (flags &&& 0x3F))) ++
    store16 (htons conn.windowSize)
  have hsegment : (frameWith s conn id flags payload ipCheck (htons check)).drop 34 =
      fields ++ store16 (htons check) ++ store16 0 ++ payload := rfl
  have hheader : ((frameWith s conn id flags payload ipCheck (htons check)).drop 34).take 20 =
      fields ++ hi16 check :: lo16 check :: store16 0 := by
    rw [hsegment, store16_htons check]
    rfl
  have hlength : ((frameWith s conn id flags payload ipCheck (htons check)).drop 34).length =
      20 + payload.length := by
    rw [hsegment, List.length_append]
    rfl
  have hpayload : (frameWith s conn id flags payload ipCheck (htons check)).drop 54 = payload :=
    rfl
  -- the check field lies between the window size and the urgent pointer
  let pre : Bytes := rfcPseudoHeader conn.localIp conn.remoteIp (20 + payload.length) ++ fields
  have hpre : pre.length % 2 = 0 := by
    have hpreLen : pre.length = 28 := rfl
    rw [hpreLen]
  have hcut : rfcPseudoHeader conn.localIp conn.remoteIp (20 + payload.length) ++
      (fields ++ hi16 check :: lo16 check :: store16 0) ++ padded payload =
      pre ++ hi16 check :: lo16 check :: (store16 0 ++ padded payload) := by
    simp [pre]
  have hcleared : wordSum (pre ++ 0 :: 0 :: (store16 0 ++ padded payload)) =
      tcpWords conn flags payload := by
    have hparts : pre ++ 0 :: 0 :: (store16 0 ++ padded payload) =
        summedPseudoHeader conn payload ++ (tcpHeaderBytes conn flags 0 ++ padded payload) := by
      rw [summedPseudoHeader_eq conn payload hlen]
      have hzero : store16 0 = [0, 0] := rfl
      simp [pre, fields, tcpHeaderBytes, hzero]
    rw [hparts, wordSum_append _ _ (summedPseudoHeader_even conn payload),
      wordSum_append _ _ (tcpHeaderBytes_even conn flags), wordSum_padded, tcpWords, Nat.add_assoc]
  rw [hlength, hheader, hpayload, hcut]
  apply onesSum_checked _ hpre
  rw [toNat_hi_lo, hcheck, hcleared]

end Emitted

/-- In every frame of `send_tcp_packet` both sums come to all ones over the fields the receiver
sees, and the accumulators that the check fields come from hold the exact sums. -/
theorem emitted_checksums_verify (s : TcpStack) (conn : TcpConnection) (id flags : UInt16)
    (payload : Bytes) (hlen : payload.length ≤ 65495) :
    ChecksumsVerify conn (buildFrame s conn id flags payload) ∧
      buildFrame s conn id flags payload = frameWith s conn id flags payload
        (htons (~~~ foldCarries (ipAccumulator conn id payload)).toUInt16)
        (htons (~~~ foldCarries (tcpAccumulator conn flags payload)).toUInt16) ∧
      (ipAccumulator conn id payload).toNat = wordSum (summedIpHeader conn id payload) ∧
      (tcpAccumulator conn flags payload).toNat = wordSum (summedPseudoHeader conn payload) +
        wordSum (tcpHeaderBytes conn flags 0) + wordSum payload :=
  ⟨⟨ip_verifies s conn id flags payload, tcp_verifies s conn id flags payload hlen⟩,
    buildFrame_accumulators s conn id flags payload, ipAccumulator_toNat conn id payload,
    tcpAccumulator_toNat conn flags payload hlen⟩

/-- A payload of odd length. -/
theorem emitted_checksums_verify_sample :
    ChecksumsVerify sampleSenderConnection (buildFrame sampleSender sampleSenderConnection 1
      (tcpPsh ||| tcpAck) [0x47, 0x45, 0x54]) :=
  (emitted_checksums_verify sampleSender sampleSenderConnection 1 (tcpPsh ||| tcpAck)
    [0x47, 0x45, 0x54] (by decide)).1

end MyTelnet.Stack.EmittedChecksums
