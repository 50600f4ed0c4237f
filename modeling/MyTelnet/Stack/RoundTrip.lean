/- module: MyTelnet/Stack/RoundTrip
   scope: proofs
   digest: The three parsers undo send_tcp_packet on every frame, with any padding behind it. -/

import MyTelnet.Stack.Frames
import MyTelnet.Stack.Operations
import MyTelnet.Wire.ParserSpecs

set_option autoImplicit false
set_option relaxedAutoImplicit false

namespace MyTelnet.Stack.RoundTrip

open MyTelnet.Base.ByteOrder MyTelnet.Wire.Memory MyTelnet.Wire.Checksum MyTelnet.Wire.Layers
open MyTelnet.Wire.Parsers MyTelnet.Wire.ParserSpecs MyTelnet.Stack.State MyTelnet.Stack.Send
open MyTelnet.Stack.Operations MyTelnet.Stack.Frames

section Parsed

variable (s : TcpStack) (conn : TcpConnection) (id flags : UInt16) (payload padding : Bytes)

/-- The captured bytes: a frame and what the link added to it. -/
def captured : Bytes := buildFrame s conn id flags payload ++ padding

private theorem captured_length :
    (captured s conn id flags payload padding).length = 54 + payload.length + padding.length := by
  rw [captured, List.length_append, buildFrame_length]

theorem ihlOf_buildFrame : ihlOf (buildFrame s conn id flags payload) 14 = 5 := by
  rw [buildFrame_eq]
  show ((0x45 : UInt8) &&& 0x0F).toNat = 5
  decide

/-- The Ethernet layer object of a captured frame. -/
def ethernetLayer : ProtocolLayer :=
  ⟨0, 54 + payload.length + padding.length, 14, 40 + payload.length + padding.length⟩

def ipv4Layer : ProtocolLayer :=
  ⟨14, 40 + payload.length + padding.length, 34, 20 + payload.length⟩

def tcpLayer : ProtocolLayer := ⟨34, 20 + payload.length, 54, payload.length⟩

/-- What the receiver is to read off the IP header. -/
def sentIpv4 : Ipv4Parser :=
  ⟨5, UInt16.ofNat (40 + payload.length), 6, conn.localIp, conn.remoteIp⟩

/-- What the receiver is to read off the TCP header. -/
def sentTcp : TcpParser :=
  { sourcePort := conn.localPort, destPort := conn.remotePort, sequenceNumber := conn.seqNum,
    ackNumber := conn.ackNum, dataOffset := 5, flags := flags, windowSize := conn.windowSize,
    payload := payload }

theorem isPsh_sentTcp : (sentTcp conn flags payload).isPsh = (flags &&& tcpPsh != 0) := rfl
theorem isAck_sentTcp : (sentTcp conn flags payload).isAck = (flags &&& tcpAck != 0) := rfl
theorem isFin_sentTcp : (sentTcp conn flags payload).isFin = (flags &&& tcpFin != 0) := rfl

/-- The flags that `process_packet` tests, for the three kinds of segment sent in a transfer. -/
theorem sentData_flags : (sentTcp conn (tcpPsh ||| tcpAck) payload).isPsh = true ∧
    (sentTcp conn (tcpPsh ||| tcpAck) payload).isAck = true ∧
    (sentTcp conn (tcpPsh ||| tcpAck) payload).isFin = false := by
  rw [isPsh_sentTcp, isAck_sentTcp, isFin_sentTcp]
  decide

theorem sentAck_flags : (sentTcp conn tcpAck payload).isPsh = false ∧
    (sentTcp conn tcpAck payload).isAck = true ∧
    (sentTcp conn tcpAck payload).isFin = false := by
  rw [isPsh_sentTcp, isAck_sentTcp, isFin_sentTcp]
  decide

theorem sentFin_flags : (sentTcp conn (tcpFin ||| tcpAck) payload).isPsh = false ∧
    (sentTcp conn (tcpFin ||| tcpAck) payload).isAck = true ∧
    (sentTcp conn (tcpFin ||| tcpAck) payload).isFin = true := by
  rw [isPsh_sentTcp, isAck_sentTcp, isFin_sentTcp]
  decide

theorem ethernetParse_captured :
    ethernetParse (captured s conn id flags payload padding) 0
        (captured s conn id flags payload padding).length =
      .ok (ethernetLayer payload padding, ⟨s.gatewayMac, s.localMac, ethertypeIp⟩) := by
  rw [captured_length, ethernetParse, if_neg (by unfold ethernetHeaderLen; omega)]
  have hlen : 54 + payload.length + padding.length - ethernetHeaderLen =
      40 + payload.length + padding.length := by
    unfold ethernetHeaderLen
    omega
  rw [hlen, captured, buildFrame_eq]
  rfl

/-! The words of the two headers at their offsets in the captured bytes. -/

/-- The captured bytes cut before the IP header, and before the TCP header. -/
private theorem captured_cut : ∃ ipCheck tcpCheck,
    ipCheck = htons (calculateChecksumNew (ipHeaderBytes conn.localIp conn.remoteIp
      (UInt16.ofNat (40 + payload.length)) 6 id 0)) ∧
    captured s conn id flags payload padding = ethernetBytes s ++ (ipHeaderBytes conn.localIp
      conn.remoteIp (UInt16.ofNat (40 + payload.length)) 6 id ipCheck ++
        (tcpHeaderBytes conn flags tcpCheck ++ (payload ++ padding))) := by
  refine ⟨_, (calculateTcpChecksum conn.localIp conn.remoteIp (tcpHeaderBytes conn flags 0)
    payload).1, rfl, ?_⟩
  rw [captured, buildFrame_eq, frameWith]
  simp only [List.append_assoc]

private theorem loads_ip :
    load8 (captured s conn id flags payload padding) 14 = .ok 0x45 ∧
      load16 (captured s conn id flags payload padding) 16 =
        .ok (htons (UInt16.ofNat (40 + payload.length))) ∧
      load8 (captured s conn id flags payload padding) 23 = .ok 6 ∧
      load16 (captured s conn id flags payload padding) 24 =
        .ok (htons (calculateChecksumNew (ipHeaderBytes conn.localIp conn.remoteIp
          (UInt16.ofNat (40 + payload.length)) 6 id 0))) ∧
      load32 (captured s conn id flags payload padding) 26 = .ok (htonl conn.localIp) ∧
      load32 (captured s conn id flags payload padding) 30 = .ok (htonl conn.remoteIp) := by
  obtain ⟨c, k, rfl, hcut⟩ := captured_cut s conn id flags payload padding
  rw [hcut]
  generalize calculateChecksumNew _ = sum
  refine ⟨?_, ?_, ?_, ?_, ?_, ?_⟩
  · exact load8_append (ethernetBytes s) _ 0
  · exact (load16_append (ethernetBytes s) _ 2).trans (congrArg Except.ok (word16_lo_hi _))
  · exact load8_append (ethernetBytes s) _ 9
  · exact (load16_append (ethernetBytes s) _ 10).trans (congrArg Except.ok (word16_lo_hi _))
  · exact (load32_append (ethernetBytes s) _ 12).trans (congrArg Except.ok (word32_byte32 _))
  · exact (load32_append (ethernetBytes s) _ 16).trans (congrArg Except.ok (word32_byte32 _))

private theorem loads_tcp :
    load16 (captured s conn id flags payload padding) 34 = .ok (htons conn.localPort) ∧
      load16 (captured s conn id flags payload padding) 36 = .ok (htons conn.remotePort) ∧
      load32 (captured s conn id flags payload padding) 38 = .ok (htonl conn.seqNum) ∧
      load32 (captured s conn id flags payload padding) 42 = .ok (htonl conn.ackNum) ∧
      load16 (captured s conn id flags payload padding) 46 =
        .ok (htons (((5 : UInt16) <<< 12) ||| (flags &&& 0x3F))) ∧
      load16 (captured s conn id flags payload padding) 48 = .ok (htons conn.windowSize) ∧
      (captured s conn id flags payload padding).drop 54 = payload ++ padding := by
  obtain ⟨c, k, -, hcut⟩ := captured_cut s conn id flags payload padding
  rw [hcut, ← List.append_assoc]
  let pre : Bytes := ethernetBytes s ++ ipHeaderBytes conn.localIp conn.remoteIp
    (UInt16.ofNat (40 + payload.length)) 6 id c
  refine ⟨?_, ?_, ?_, ?_, ?_, ?_, rfl⟩
  · exact (load16_append pre _ 0).trans (congrArg Except.ok (word16_lo_hi _))
  · exact (load16_append pre _ 2).trans (congrArg Except.ok (word16_lo_hi _))
  · exact (load32_append pre _ 4).trans (congrArg Except.ok (word32_byte32 _))
  · exact (load32_append pre _ 8).trans (congrArg Except.ok (word32_byte32 _))
  · exact (load16_append pre _ 12).trans (congrArg Except.ok (word16_lo_hi _))
  · exact (load16_append pre _ 14).trans (congrArg Except.ok (word16_lo_hi _))

theorem ipv4Parse_captured (hlen : payload.length ≤ 65495) :
    ipv4Parse (captured s conn id flags payload padding) 14
        (40 + payload.length + padding.length) =
      .ok (ipv4Layer payload padding) := by
  obtain ⟨hver, htotal, -, hcheck, -, -⟩ := loads_ip s conn id flags payload padding
  have hihl : ((0x45 : UInt8) &&& 0x0F).toNat * 4 = 20 := by decide
  have hsum : calculateIpChecksum (captured s conn id flags payload padding) 14 =
      .ok (calculateChecksumNew (ipHeaderBytes conn.localIp conn.remoteIp
        (UInt16.ofNat (40 + payload.length)) 6 id 0)) := by
    rw [captured, buildFrame_eq, frameWith, List.append_assoc, List.append_assoc]
    exact calculateIpChecksum_header _ _ _ _ _ _ (ethernetBytes s) _
  rw [ipv4Parse, if_neg (by unfold ipHeaderSize; omega), hver, bind_ok, hihl, if_neg (by omega),
    hsum, bind_ok, hcheck, bind_ok, ntohs_htons, if_neg (by simp), htotal, bind_ok, ntohs_htons]
  have hpay : sizeSub (UInt16.ofNat (40 + payload.length)).toNat 20 = 20 + payload.length := by
    have hnat : (UInt16.ofNat (40 + payload.length)).toNat = 40 + payload.length :=
      UInt16.toNat_ofNat_of_lt (by simp only [UInt16.size]; omega)
    rw [hnat, sizeSub_of_le (by omega) (by omega)]
    omega
  rw [hpay]
  rfl

theorem ipv4Read_captured :
    ipv4Read (captured s conn id flags payload padding) (ipv4Layer payload padding) =
      .ok (sentIpv4 conn payload) := by
  obtain ⟨hver, htotal, hproto, -, hsrc, hdst⟩ := loads_ip s conn id flags payload padding
  simp only [ipv4Read, ipv4Layer, hver, htotal, hproto, hsrc, hdst, bind_ok, ntohs_htons,
    ntohl_htonl]
  rfl

theorem tcpParse_captured :
    tcpParse (captured s conn id flags payload padding) 34 (20 + payload.length) =
      .ok (tcpLayer payload) := by
  obtain ⟨-, -, -, -, hflags, -, -⟩ := loads_tcp s conn id flags payload padding
  have hoff : (5 : UInt16).toNat * 4 = 20 := rfl
  rw [tcpParse, if_neg (by unfold tcpHeaderSize; omega), hflags, bind_ok, ntohs_htons,
    offset_shift, hoff, if_neg (by omega), tcpLayer]
  have hlen : 20 + payload.length - 20 = payload.length := by omega
  rw [hlen]
  rfl

theorem tcpRead_captured (hflags : flags &&& 0x3F = flags) :
    tcpRead (captured s conn id flags payload padding) (tcpLayer payload) =
      .ok (sentTcp conn flags payload) := by
  obtain ⟨hsource, hdest, hseq, hack, hoff, hwindow, hdrop⟩ :=
    loads_tcp s conn id flags payload padding
  have hfit : 54 + payload.length ≤ (captured s conn id flags payload padding).length := by
    rw [captured_length]
    omega
  have hload : loadRange (captured s conn id flags payload padding) 54 payload.length =
      .ok payload := by
    rw [loadRange_of_le hfit, hdrop, List.take_left]
  simp only [tcpRead, tcpLayer, hsource, hdest, hseq, hack, hoff, hwindow, bind_ok,
    dumpPayload_eq, hfit, implies_true, if_true, hload, ntohs_htons, ntohl_htonl, offset_shift,
    offset_mask]
  rw [hflags]
  rfl

/-- The capture path on a captured frame hands exactly the sent headers and payload on. -/
theorem captureFrame_captured (hflags : flags &&& 0x3F = flags) (hlen : payload.length ≤ 65495) :
    captureFrame (captured s conn id flags payload padding) =
      ([ethernetLayer payload padding, ipv4Layer payload padding, tcpLayer payload],
        .ok (some ⟨some (sentIpv4 conn payload), some (sentTcp conn flags payload)⟩)) := by
  simp only [captureFrame, ethernetParse_captured]
  have hip := ipv4Parse_captured s conn id flags payload padding hlen
  have htcp := tcpParse_captured s conn id flags payload padding
  simp only [ethernetLayer, ne_eq, not_true, if_false, hip, ipv4Read_captured]
  simp only [sentIpv4, ipv4Layer, not_true, if_false, htcp,
    tcpRead_captured s conn id flags payload padding hflags]
  rfl

end Parsed

/-- Within six bits the mask of `build_tcp_header` keeps the flags. -/
theorem flags_mask {flags : UInt16} (h : flags ≤ 0x3F) : flags &&& 0x3F = flags := by
  apply UInt16.toNat_inj.mp
  have hle : flags.toNat ≤ 63 := h
  have hand : flags.toNat &&& 63 = flags.toNat % 64 := Nat.and_two_pow_sub_one_eq_mod _ 6
  rw [UInt16.toNat_and]
  simp only [UInt16.reduceToNat, hand]
  omega

/-- Running the Ethernet parser on a sent frame with padding, the IPv4 parser on its payload and
the TCP parser on that payload throws nothing and gives back all that was sent. -/
theorem parsers_undo_send (s : TcpStack) (conn : TcpConnection) (id flags : UInt16)
    (payload padding : Bytes) (hflags : flags ≤ 0x3F) (hlen : payload.length ≤ 65495) :
    ∃ eth ip tcp : ProtocolLayer,
      ethernetParse (buildFrame s conn id flags payload ++ padding) 0
          (buildFrame s conn id flags payload ++ padding).length =
        .ok (eth, { dstMac := s.gatewayMac, srcMac := s.localMac, etherType := 0x0800 }) ∧
      ipv4Parse (buildFrame s conn id flags payload ++ padding) eth.payloadPtr eth.payloadLen =
        .ok ip ∧
      ipv4Read (buildFrame s conn id flags payload ++ padding) ip =
        .ok { ihl := 5, totalLength := UInt16.ofNat (40 + payload.length), protocol := 6,
              sourceIp := conn.localIp, destIp := conn.remoteIp } ∧
      tcpParse (buildFrame s conn id flags payload ++ padding) ip.payloadPtr ip.payloadLen =
        .ok tcp ∧
      tcpRead (buildFrame s conn id flags payload ++ padding) tcp =
        .ok { sourcePort := conn.localPort, destPort := conn.remotePort,
              sequenceNumber := conn.seqNum, ackNumber := conn.ackNum, dataOffset := 5,
              flags := flags, windowSize := conn.windowSize, payload := payload } := by
  refine ⟨ethernetLayer payload padding, ipv4Layer payload padding, tcpLayer payload,
    ethernetParse_captured s conn id flags payload padding,
    ipv4Parse_captured s conn id flags payload padding hlen,
    ipv4Read_captured s conn id flags payload padding,
    tcpParse_captured s conn id flags payload padding,
    tcpRead_captured s conn id flags payload padding (flags_mask hflags)⟩

def sampleSender : TcpStack := initialized ⟨0x02, 0, 0, 0, 0, 0x01⟩ 0x0A000002

def sampleSenderConnection : TcpConnection := newConnection sampleSender 0x0A000009 80 40000 1000

/-- A frame with one byte of data and one byte of padding. -/
def sampleFrame : Bytes :=
  buildFrame sampleSender sampleSenderConnection 1 (tcpPsh ||| tcpAck) [0x47] ++ [0]

theorem parsers_undo_send_sample :
    ∃ eth ip tcp : ProtocolLayer,
      ethernetParse sampleFrame 0 sampleFrame.length =
        .ok (eth, { dstMac := sampleSender.gatewayMac, srcMac := sampleSender.localMac,
                    etherType := 0x0800 }) ∧
      ipv4Parse sampleFrame eth.payloadPtr eth.payloadLen = .ok ip ∧
      ipv4Read sampleFrame ip =
        .ok { ihl := 5, totalLength := 41, protocol := 6, sourceIp := 0x0A000002,
              destIp := 0x0A000009 } ∧
      tcpParse sampleFrame ip.payloadPtr ip.payloadLen = .ok tcp ∧
      tcpRead sampleFrame tcp =
        .ok { sourcePort := 40000, destPort := 80, sequenceNumber := 1000, ackNumber := 0,
              dataOffset := 5, flags := tcpPsh ||| tcpAck, windowSize := 8192,
              payload := [0x47] } :=
  parsers_undo_send sampleSender sampleSenderConnection 1 (tcpPsh ||| tcpAck) [0x47] [0] (by decide)
    (by decide)

end MyTelnet.Stack.RoundTrip
