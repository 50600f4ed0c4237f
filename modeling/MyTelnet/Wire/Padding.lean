/- module: MyTelnet/Wire/Padding
   scope: proofs
   digest: What the link puts behind a frame changes nothing on the capture path. -/

import Mathlib.Data.List.GetD
import MyTelnet.Base.Persistence
import MyTelnet.Wire.LayerOverlap

set_option autoImplicit false
set_option relaxedAutoImplicit false

namespace MyTelnet.Wire.Padding

open MyTelnet.Base.ByteOrder MyTelnet.Base.Persistence MyTelnet.Wire.Memory
open MyTelnet.Wire.Checksum MyTelnet.Wire.Layers MyTelnet.Wire.Parsers MyTelnet.Wire.ParserSpecs
open MyTelnet.Wire.CaptureBounds MyTelnet.Wire.HandingOn MyTelnet.Wire.LayerOverlap

theorem persistent_load8 (i : Nat) : Persistent fun mem => load8 mem i := by
  have hget : (fun mem => load8 mem i) =
      fun mem : Bytes => mem[i]?.elim (.error .undefinedBehaviour) .ok := by
    funext mem
    rw [load8]
    cases mem[i]? <;> rfl
  rw [hget]
  exact persistent_getElem? _ i

theorem persistent_load16 (i : Nat) : Persistent fun mem => load16 mem i :=
  (persistent_load8 i).bind fun _ => (persistent_load8 (i + 1)).bind fun _ => persistent_ok _

theorem persistent_load32 (i : Nat) : Persistent fun mem => load32 mem i :=
  (persistent_load8 i).bind fun _ => (persistent_load8 (i + 1)).bind fun _ =>
    (persistent_load8 (i + 2)).bind fun _ => (persistent_load8 (i + 3)).bind fun _ =>
      persistent_ok _

theorem persistent_loadRange (i n : Nat) : Persistent fun mem => loadRange mem i n := by
  induction n generalizing i with
  | zero => exact persistent_ok []
  | succ n ih =>
    exact (persistent_load8 i).bind fun _ => (ih (i + 1)).bind fun _ => persistent_ok _

theorem persistent_loadMac (i : Nat) : Persistent fun mem => loadMac mem i :=
  (persistent_load8 i).bind fun _ => (persistent_load8 (i + 1)).bind fun _ =>
    (persistent_load8 (i + 2)).bind fun _ => (persistent_load8 (i + 3)).bind fun _ =>
      (persistent_load8 (i + 4)).bind fun _ => (persistent_load8 (i + 5)).bind fun _ =>
        persistent_ok _

theorem persistent_calculateIpChecksum (ptr : Nat) :
    Persistent fun mem => calculateIpChecksum mem ptr :=
  (persistent_load8 ptr).bind fun _ => (persistent_loadRange ptr _).bind fun _ => fun _ _ _ h => h

theorem persistent_ipv4Read (layer : ProtocolLayer) : Persistent fun mem => ipv4Read mem layer :=
  (persistent_load8 _).bind fun _ => (persistent_load16 _).bind fun _ =>
    (persistent_load8 _).bind fun _ => (persistent_load32 _).bind fun _ =>
      (persistent_load32 _).bind fun _ => persistent_ok _

theorem persistent_tcpParse (rawData dataLength : Nat) :
    Persistent fun mem => tcpParse mem rawData dataLength :=
  .ite (persistent_error _)
    ((persistent_load16 _).bind fun _ => .ite (persistent_error _) (persistent_ok _))

theorem persistent_dumpPayload (payload payloadLen i : Nat) :
    Persistent fun mem => dumpPayload mem payload payloadLen i := by
  intro mem more result h
  simp only [dumpPayload_eq] at h ⊢
  split at h
  · next hfit =>
    rw [if_pos, h]
    intro hi
    have hlen := hfit hi
    rw [List.length_append]
    omega
  · cases h

theorem persistent_tcpRead (layer : ProtocolLayer) : Persistent fun mem => tcpRead mem layer :=
  (persistent_load16 _).bind fun _ => (persistent_load16 _).bind fun _ =>
    (persistent_load32 _).bind fun _ => (persistent_load32 _).bind fun _ =>
      (persistent_load16 _).bind fun _ => (persistent_load16 _).bind fun _ =>
        (persistent_dumpPayload _ _ _).bind fun _ => (persistent_loadRange _ _).bind fun _ =>
          persistent_ok _

theorem persistent_ethernetParse (rawData dataLength : Nat) :
    Persistent fun mem => ethernetParse mem rawData dataLength :=
  .ite (persistent_error _)
    ((persistent_loadMac _).bind fun _ => (persistent_loadMac _).bind fun _ =>
      (persistent_load16 _).bind fun _ => persistent_ok _)

theorem persistent_ipv4Parse (rawData dataLength : Nat) :
    Persistent fun mem => ipv4Parse mem rawData dataLength :=
  .ite (persistent_error _)
    ((persistent_load8 _).bind fun _ => .ite (persistent_error _)
      ((persistent_calculateIpChecksum _).bind fun _ => (persistent_load16 _).bind fun _ =>
        .ite (persistent_error _) ((persistent_load16 _).bind fun _ => persistent_ok _)))

/-- More data than the header needs changes nothing but the lengths that the layer keeps. -/
theorem ethernetParse_longer {mem : Bytes} {rawData n n' : Nat} {layer : ProtocolLayer}
    {eth : EthernetParser} (h : ethernetParse mem rawData n = .ok (layer, eth)) (hle : n ≤ n') :
    layer = ⟨rawData, n, rawData + 14, n - 14⟩ ∧
      ethernetParse mem rawData n' = .ok (⟨rawData, n', rawData + 14, n' - 14⟩, eth) := by
  unfold ethernetParse at h ⊢
  split at h
  · cases h
  next hlong =>
    rw [if_neg (by omega)]
    obtain ⟨dstMac, hdst, h⟩ := bind_eq_ok h
    obtain ⟨srcMac, hsrc, h⟩ := bind_eq_ok h
    obtain ⟨etherType, htype, h⟩ := bind_eq_ok h
    rw [hdst, bind_ok, hsrc, bind_ok, htype, bind_ok]
    cases h
    exact ⟨rfl, rfl⟩

theorem ipv4Parse_longer {mem : Bytes} {rawData n n' : Nat} {layer : ProtocolLayer}
    (h : ipv4Parse mem rawData n = .ok layer) (hle : n ≤ n') :
    ipv4Parse mem rawData n' = .ok { layer with dataLength := n' } := by
  unfold ipv4Parse at h ⊢
  split at h
  · cases h
  next hlong =>
    rw [if_neg (by omega)]
    refine bind_eq_ok_of h fun versionIhl h => ?_
    dsimp only at h ⊢
    split at h
    · cases h
    rw [if_neg (by omega)]
    refine bind_eq_ok_of h fun calculated h => bind_eq_ok_of h fun check h => ?_
    split at h
    · cases h
    rw [if_neg (by assumption)]
    refine bind_eq_ok_of h fun totalLen h => ?_
    cases h
    rfl

/-- What is read of a datagram once its IP header has been accepted. -/
def readDatagram (mem : Bytes) (ipLayer : ProtocolLayer) : Checked (Option Packet) := do
  let ip ← ipv4Read mem ipLayer
  if ip.protocol ≠ 6 then .ok none else do
    let tcpLayer ← tcpParse mem ipLayer.payloadPtr ipLayer.payloadLen
    let tcp ← tcpRead mem tcpLayer
    return some ⟨some ip, some tcp⟩

theorem persistent_readDatagram (ipLayer : ProtocolLayer) :
    Persistent fun mem => readDatagram mem ipLayer :=
  (persistent_ipv4Read _).bind fun _ => .ite (persistent_ok _)
    ((persistent_tcpParse _ _).bind fun _ => (persistent_tcpRead _).bind fun _ => persistent_ok _)

theorem captureFrame_snd (mem : Bytes) :
    (captureFrame mem).2 = (ethernetParse mem 0 mem.length >>= fun (ethLayer, eth) =>
      if eth.etherType ≠ ethertypeIp then .ok none else
        ipv4Parse mem ethLayer.payloadPtr ethLayer.payloadLen >>= readDatagram mem) := by
  unfold captureFrame
  cases ethernetParse mem 0 mem.length with
  | error e => rfl
  | ok parsed =>
    obtain ⟨ethLayer, eth⟩ := parsed
    rw [bind_ok]
    dsimp only
    split
    · rfl
    cases ipv4Parse mem ethLayer.payloadPtr ethLayer.payloadLen with
    | error e => rfl
    | ok ipLayer =>
      dsimp only [bind_ok, readDatagram]
      cases ipv4Read mem ipLayer with
      | error e => rfl
      | ok ip =>
        dsimp only [bind_ok]
        split
        · rfl
        cases tcpParse mem ipLayer.payloadPtr ipLayer.payloadLen with
        | error e => rfl
        | ok tcpLayer =>
          dsimp only [bind_ok]
          cases tcpRead mem tcpLayer <;> rfl

/-- A frame that the capture path gets through without a fault gives the same with padding. -/
theorem captureFrame_append {frame : Bytes} {result : Option Packet}
    (h : (captureFrame frame).2 = .ok result) (padding : Bytes) :
    (captureFrame (frame ++ padding)).2 = .ok result := by
  have hle : frame.length ≤ (frame ++ padding).length := by
    rw [List.length_append]
    omega
  rw [captureFrame_snd] at h ⊢
  obtain ⟨⟨ethLayer, eth⟩, heth, h⟩ := bind_eq_ok h
  obtain ⟨rfl, hmore⟩ := ethernetParse_longer heth hle
  have heth' : ethernetParse (frame ++ padding) 0 (frame ++ padding).length = .ok _ :=
    persistent_ethernetParse _ _ _ padding _ hmore
  rw [heth', bind_ok]
  dsimp only at h ⊢
  split at h
  · rwa [if_pos (by assumption)]
  · rw [if_neg (by assumption)]
    obtain ⟨ipLayer, hip, h⟩ := bind_eq_ok h
    have hlonger := ipv4Parse_longer hip (Nat.sub_le_sub_right hle 14)
    have hip' : ipv4Parse (frame ++ padding) (0 + 14) ((frame ++ padding).length - 14) = .ok _ :=
      persistent_ipv4Parse _ _ _ padding _ hlonger
    rw [hip', bind_ok]
    exact persistent_readDatagram ipLayer _ padding _ h

theorem tcpParse_append {frame : Bytes} {rawData : Nat} (h : rawData + 14 ≤ frame.length)
    (padding : Bytes) (dataLength : Nat) :
    tcpParse (frame ++ padding) rawData dataLength = tcpParse frame rawData dataLength := by
  have hle : frame.length ≤ (frame ++ padding).length := by
    rw [List.length_append]
    omega
  rw [tcpParse, tcpParse, load16_of_lt (by omega), load16_of_lt (by omega),
    List.getD_append _ _ _ _ (by omega), List.getD_append _ _ _ _ (by omega)]

theorem readDatagram_of_append {frame padding : Bytes} {ipLayer : ProtocolLayer} {packet : Packet}
    (hraw : ipLayer.rawData + 20 ≤ frame.length)
    (hpay : ipLayer.payloadPtr + ipLayer.payloadLen ≤ frame.length)
    (h : readDatagram (frame ++ padding) ipLayer = .ok (some packet)) :
    readDatagram frame ipLayer = .ok (some packet) := by
  obtain ⟨ip, hip⟩ := ipv4Read_ok frame ipLayer hraw
  have hip' : ipv4Read (frame ++ padding) ipLayer = .ok ip :=
    persistent_ipv4Read _ _ padding _ hip
  rw [readDatagram, hip', bind_ok] at h
  rw [readDatagram, hip, bind_ok]
  split at h
  · cases h
  rw [if_neg (by assumption)]
  obtain ⟨tcpLayer, hparse, h⟩ := bind_eq_ok h
  obtain ⟨h20, hoffset, hlayer⟩ := tcpParse_eq_ok hparse
  rw [tcpParse_append (by omega)] at hparse
  obtain ⟨tcp, hread⟩ := tcpRead_ok frame tcpLayer (by rw [hlayer]; dsimp only; omega)
    (by rw [hlayer]; dsimp only; omega)
  have hread' : tcpRead (frame ++ padding) tcpLayer = .ok tcp :=
    persistent_tcpRead _ _ padding _ hread
  rw [hread', bind_ok] at h
  rw [hparse, bind_ok, hread, bind_ok]
  exact h

/-- A frame that holds its datagram whole was not handed on because of what stands behind it. -/
theorem captureFrame_of_append {frame padding : Bytes} {packet : Packet}
    (hcap : (frame ++ padding).length < 2 ^ 32)
    (hwhole : 14 + totalLenOf (frame ++ padding) ≤ frame.length)
    (h : (captureFrame (frame ++ padding)).2 = .ok (some packet)) :
    (captureFrame frame).2 = .ok (some packet) := by
  obtain ⟨ip, tcp, -, hon⟩ := captureFrame_some ⟨frame ++ padding, hcap⟩ h
  have hihl := hon.ihl_ge
  have hsegment := hon.segment_le
  have hchecked := hon.checked
  dsimp only at hihl hsegment hchecked
  have hle : frame.length ≤ (frame ++ padding).length := by
    rw [List.length_append]
    omega
  have hihlOf : ihlOf (frame ++ padding) 14 = ihlOf frame 14 := by
    rw [ihlOf, ihlOf, List.getD_append _ _ _ _ (by omega)]
  have htotal : totalLenOf (frame ++ padding) = totalLenOf frame := by
    rw [totalLenOf, totalLenOf, List.getD_append _ _ _ _ (by omega),
      List.getD_append _ _ _ _ (by omega)]
  have hheader : ipHeaderOf (frame ++ padding) 14 = ipHeaderOf frame 14 := by
    rw [ipHeaderOf, ipHeaderOf, hihlOf, List.drop_append_of_le_length (by omega),
      List.take_append_of_le_length (by rw [List.length_drop]; omega)]
  rw [hheader] at hchecked
  obtain ⟨eth, heth, -⟩ := ethernetParse_ok frame (by omega)
  have heth' : ethernetParse (frame ++ padding) 0 (frame ++ padding).length = .ok _ :=
    persistent_ethernetParse _ _ _ padding _ (ethernetParse_longer heth hle).2
  rw [captureFrame_snd, heth', bind_ok] at h
  rw [captureFrame_snd, heth, bind_ok]
  dsimp only at h ⊢
  split at h
  · cases h
  rw [if_neg (by assumption)]
  obtain ⟨ipLayer, hip⟩ : ∃ ipLayer, ipv4Parse frame 14 (frame.length - 14) = .ok ipLayer := by
    rw [ipv4Parse_accepts_iff (by omega)]
    exact ⟨by omega, by omega, by omega, hchecked⟩
  obtain rfl := ipv4Parse_eq_ok (by omega) hip
  have hip' : ipv4Parse (frame ++ padding) (0 + 14) ((frame ++ padding).length - 14) = .ok _ :=
    persistent_ipv4Parse _ _ _ padding _
      (ipv4Parse_longer hip (Nat.sub_le_sub_right hle 14))
  rw [hip', bind_ok] at h
  rw [hip, bind_ok]
  have hpayload : (ipLayerOf frame).payloadLen = totalLenOf frame - ihlOf frame 14 * 4 :=
    sizeSub_of_le (by have := totalLenOf_lt frame; omega) (by omega)
  refine readDatagram_of_append ?_ ?_ h
  · show 14 + 20 ≤ frame.length
    omega
  · rw [hpayload]
    show 14 + ihlOf frame 14 * 4 + _ ≤ frame.length
    omega

/-- Where the link layer's frame ends does not matter as long as it ends behind the datagram. -/
theorem padding_transparent (frame : CapturedFrame) (n : Nat)
    (hwhole : 14 + totalLenOf frame.bytes ≤ n) (packet : Packet) :
    (captureFrame (frame.bytes.take n)).2 = .ok (some packet) ↔
      (captureFrame frame.bytes).2 = .ok (some packet) := by
  have hcut := List.take_append_drop n frame.bytes
  constructor
  · intro h
    rw [← hcut]
    exact captureFrame_append h _
  · intro h
    by_cases hn : frame.bytes.length ≤ n
    · rwa [List.take_of_length_le hn]
    rw [← hcut] at h
    apply captureFrame_of_append _ _ h
    · rw [hcut]
      exact frame.caplen_lt
    · rw [hcut, List.length_take]
      omega

/-- A frame of 55 bytes goes out with the 60 that Ethernet asks for. -/
theorem padding_transparent_sample :
    (captureFrame ((oneByteFrame ++ List.replicate 5 0).take 55)).2 =
        .ok (some (oneBytePacket 5 [0x61])) ↔
      (captureFrame (oneByteFrame ++ List.replicate 5 0)).2 =
        .ok (some (oneBytePacket 5 [0x61])) :=
  padding_transparent ⟨oneByteFrame ++ List.replicate 5 0, by decide⟩ 55 (by decide +kernel)
    (oneBytePacket 5 [0x61])

end MyTelnet.Wire.Padding
