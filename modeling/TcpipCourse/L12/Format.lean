import TcpipCourse.Lib.Format
import TcpipCourse.L10.Parse
import TcpipCourse.L12.Invariant

/-!
# Lesson 12: the report as one line

* `layerName`, `appendText`, `appendLayers` : the names of the layers, collected in a buffer of 64 bytes;
* `summaryPieces` : the line, conversion by conversion; `formatReport` : as much of it as `cap` allows;
* `Report.InRange` : the numbers are values of their C types, as `diagnoseFrame` leaves them;
* `length_summaryText_lt` : no line fills the buffer of 512 bytes;
* `formatReport_capacity` : what every call stores, reports and returns.
-/

namespace TcpipCourse.L12
open Lib

def layerName : Layer → String
  | .ethernet => "ethernet"
  | .arp => "arp"
  | .ipv4 => "ipv4"
  | .icmp => "icmp"
  | .udp => "udp"
  | .dns => "dns"
  | .tcp => "tcp"
  | .http => "http"

/-- The used part of a buffer of `cap` bytes with `text` behind it; `none` when there is no room. -/
def appendText (buffer : Bytes) (cap : Nat) (text : String) : Option Bytes :=
  if text.toList.length > cap - buffer.length then none else some (buffer ++ L10.ascii text.toList)

/-- `for (index = 0U; index < report->layer_count; index += 1U)` -/
def appendLayers : (index : Nat) → (layers : List Layer) → (buffer : Bytes) → Option Bytes
  | _, [], buffer => some buffer
  | index, layer :: rest, buffer =>
    (if index ≠ 0 then appendText buffer 64 ">" else some buffer).bind fun marked =>
      (appendText marked 64 (layerName layer)).bind fun named => appendLayers (index + 1) rest named

/-- The byte of an address that `shift` brings to the end. -/
def octet (address : UInt32) (shift : UInt32) : Nat := ((address >>> shift) &&& 0xff).toNat

/-- The arguments of `snprintf`, each behind the part of the format string in front of it. -/
def summaryPieces (layers : Bytes) (report : Report) : List (Piece UInt8) :=
  [.literal "layers=", .text layers,
   .literal " diagnostics=0x", .hex 8 report.diagnostics.toNat,
   .literal " frame=", .unsigned 64 report.frameLength,
   .literal " parsed=", .unsigned 64 report.parsedLength,
   .literal " payload=", .unsigned 64 report.payloadLength,
   .literal " ethertype=0x", .hex 4 report.etherType.toNat,
   .literal " arp_opcode=", .unsigned 32 report.arpOpcode.toNat,
   .literal " ip_protocol=", .unsigned 32 report.ipProtocol.toNat,
   .literal " src=", .unsigned 32 (octet report.sourceIpv4 24),
   .literal ".", .unsigned 32 (octet report.sourceIpv4 16),
   .literal ".", .unsigned 32 (octet report.sourceIpv4 8),
   .literal ".", .unsigned 32 (octet report.sourceIpv4 0),
   .literal " dst=", .unsigned 32 (octet report.destinationIpv4 24),
   .literal ".", .unsigned 32 (octet report.destinationIpv4 16),
   .literal ".", .unsigned 32 (octet report.destinationIpv4 8),
   .literal ".", .unsigned 32 (octet report.destinationIpv4 0),
   .literal " ports=", .unsigned 32 report.sourcePort.toNat,
   .literal "->", .unsigned 32 report.destinationPort.toNat,
   .literal " icmp_type=", .unsigned 32 report.icmpType.toNat,
   .literal " dns_id=0x", .hex 4 report.dnsIdentifier.toNat,
   .literal " dns_questions=", .unsigned 32 report.dnsQuestionCount.toNat,
   .literal " tcp_flags=0x", .hex 2 report.tcpFlags.toNat,
   .literal " http_bytes=", .unsigned 64 report.httpMessageLength,
   .literal " checksums=", .unsigned 32 report.checksumsValid,
   .literal "/", .unsigned 32 report.checksumsChecked]

def summaryText (layers : Bytes) (report : Report) : Bytes :=
  render (fun c => UInt8.ofNat c.toNat) (summaryPieces layers report)

/-- `out` is what is stored from the pointer on, `none` for `NULL`. -/
structure FormatResult where
  status : Status
  out : Option Bytes
  written : Nat
  deriving DecidableEq, Repr

def formatReport (report : Report) (out : Option Bytes) (cap : Nat) : FormatResult :=
  if (out = none ∧ cap ≠ 0) ∨ report.layers.length > maxLayers then ⟨.invalidArgument, out, 0⟩
  else
    match appendLayers 0 report.layers [] with
    | none => ⟨.invalidArgument, out, 0⟩
    | some layers =>
      let (count, summary) := snprintf 0 512 (summaryText layers report)
      if count ≥ 512 then ⟨.capacity, out, 0⟩
      else
        let copied := if count ≥ cap then cap - 1 else count
        let out := if cap ≠ 0 then out.map fun dst => overwrite dst 0 (summary.take copied ++ [0]) else out
        ⟨if cap ≤ count then .capacity else .ok, out, count⟩

/-! ## The length of the line -/

/-- The fields of the types `size_t` and `unsigned` hold values of these types. -/
structure Report.InRange (report : Report) : Prop where
  frame : report.frameLength ≤ sizeMax
  parsed : report.parsedLength ≤ sizeMax
  payload : report.payloadLength ≤ sizeMax
  http : report.httpMessageLength ≤ sizeMax
  checked : report.checksumsChecked ≤ uint32Max
  valid : report.checksumsValid ≤ uint32Max

theorem layerName_length (layer : Layer) : (layerName layer).toList.length ≤ 8 := by
  cases layer <;> decide

theorem appendText_of {buffer : Bytes} {cap : Nat} {text : String} (h : buffer.length + text.toList.length ≤ cap) :
    appendText buffer cap text = some (buffer ++ L10.ascii text.toList) :=
  if_neg (by omega)

theorem appendLayers_of {layers : List Layer} : ∀ {index : Nat} {buffer : Bytes},
    buffer.length + 9 * layers.length ≤ 64 →
    ∃ text, appendLayers index layers buffer = some text ∧ text.length ≤ buffer.length + 9 * layers.length := by
  induction layers with
  | nil => exact fun _ => ⟨_, rfl, Nat.le_refl _⟩
  | cons layer rest ih =>
    intro index buffer hroom
    rw [List.length_cons] at hroom ⊢
    have hname := layerName_length layer
    have hmark : ∃ marked : Bytes, (if index ≠ 0 then appendText buffer 64 ">" else some buffer) = some marked ∧
        marked.length ≤ buffer.length + 1 := by
      split
      · exact ⟨_, appendText_of (show buffer.length + 1 ≤ 64 by omega), (List.length_append).le⟩
      · exact ⟨buffer, rfl, Nat.le_succ _⟩
    obtain ⟨marked, hmarked, hlen⟩ := hmark
    have hlen' : (marked ++ L10.ascii (layerName layer).toList).length =
        marked.length + (layerName layer).toList.length := by
      rw [List.length_append, L10.ascii, List.length_map]
    obtain ⟨text, htext, hle⟩ := @ih (index + 1) (marked ++ L10.ascii (layerName layer).toList) (by omega)
    refine ⟨text, ?_, by omega⟩
    rw [appendLayers, hmarked, Option.bind_some, appendText_of (by omega), Option.bind_some]
    exact htext

theorem summaryPieces_ok (layers : Bytes) {report : Report} (h : report.InRange) :
    ∀ piece ∈ summaryPieces layers report, piece.Ok := by
  have hsize : ∀ {n : Nat}, n ≤ sizeMax → n < 2 ^ 64 := fun hn => Nat.lt_succ_of_le hn
  have hunsigned : ∀ {n : Nat}, n ≤ uint32Max → n < 2 ^ 32 := fun hn => Nat.lt_succ_of_le hn
  have h8 : ∀ n : UInt8, n.toNat < 2 ^ 32 := fun n => lt_trans n.toNat_lt (by decide)
  have h16 : ∀ n : UInt16, n.toNat < 2 ^ 32 := fun n => lt_trans n.toNat_lt (by decide)
  have h32 : ∀ address shift : UInt32, octet address shift < 2 ^ 32 := fun _ _ => UInt32.toNat_lt _
  simp only [summaryPieces, List.forall_mem_cons, Piece.Ok, true_and, h8, h16, h32, hsize h.frame, hsize h.parsed,
    hsize h.payload, hsize h.http, hunsigned h.checked, hunsigned h.valid, List.not_mem_nil, false_imp_iff,
    implies_true, and_true]
  exact ⟨⟨by decide, UInt32.toNat_lt _⟩, ⟨by decide, UInt16.toNat_lt _⟩, ⟨by decide, UInt16.toNat_lt _⟩,
    ⟨by decide, UInt8.toNat_lt _⟩⟩

/-- All conversions at their widest, without the names of the layers. -/
theorem sum_width_summaryPieces (layers : Bytes) (report : Report) :
    ((summaryPieces layers report).map Piece.width).sum = 440 + layers.length := by
  simp only [summaryPieces, List.map_cons, Piece.width, List.map_nil, List.sum_cons, List.sum_nil]
  have h32 : (Nat.toDigits 10 (2 ^ 32 - 1)).length = 10 := by decide
  have h64 : (Nat.toDigits 10 (2 ^ 64 - 1)).length = 20 := by decide
  rw [h32, h64]
  simp only [String.reduceToList, List.length_cons, List.length_nil]
  omega

theorem length_summaryText_lt {layers : Bytes} {report : Report} (h : report.InRange) (hlen : layers.length ≤ 36) :
    (summaryText layers report).length < 512 := by
  have hle := length_render_le (fun c => UInt8.ofNat c.toNat) (summaryPieces_ok layers h)
  rw [sum_width_summaryPieces] at hle
  unfold summaryText
  omega

/-! ## The call -/

/-- What is stored through `out`: as much of the text as there is room for, and a NUL. -/
def stored (text dst : Bytes) (cap : Nat) : Bytes :=
  if cap = 0 then dst
  else text.take (min text.length (cap - 1)) ++ 0 :: dst.drop (min text.length (cap - 1) + 1)

theorem overwrite_stored {text dst : Bytes} {cap : Nat} (hcap : cap ≤ dst.length) (hpos : cap ≠ 0) :
    overwrite dst 0 (text.take (min text.length (cap - 1)) ++ [0]) = stored text dst cap := by
  have hlen : (text.take (min text.length (cap - 1)) ++ [0]).length = min text.length (cap - 1) + 1 := by
    rw [List.length_append, List.length_take, List.length_singleton]
    omega
  rw [overwrite_zero_append _ _ (by omega), hlen, stored, if_neg hpos, List.append_assoc]
  rfl

theorem formatReport_of {report : Report} {layers : Bytes} (hcount : report.layers.length ≤ maxLayers)
    (hlayers : appendLayers 0 report.layers [] = some layers) (hlen : (summaryText layers report).length < 512)
    {out : Option Bytes} {cap : Nat} (hout : out = none → cap = 0) (hcap : ∀ dst ∈ out, cap ≤ dst.length) :
    formatReport report out cap =
      ⟨if (summaryText layers report).length < cap then .ok else .capacity,
        out.map fun dst => stored (summaryText layers report) dst cap, (summaryText layers report).length⟩ := by
  unfold formatReport
  rw [if_neg (by rintro (⟨hnull, hne⟩ | hmany) <;> [exact hne (hout hnull); omega]), hlayers]
  dsimp only
  generalize summaryText layers report = text at hlen
  have hcount : (snprintf 0 512 text).1 = text.length := rfl
  have hcopied : (if text.length ≥ cap then cap - 1 else text.length) = min text.length (cap - 1) := by
    split <;> omega
  rw [hcount, if_neg (by omega), hcopied, take_snprintf 0 hlen (Nat.min_le_left _ _)]
  congr 1
  · by_cases hfits : text.length < cap
    · rw [if_pos hfits, if_neg (by omega)]
    · rw [if_neg hfits, if_pos (by omega)]
  · cases out with
    | none => rw [if_neg (not_not.mpr (hout rfl))]; rfl
    | some dst =>
      by_cases hzero : cap = 0
      · rw [if_neg (not_not.mpr hzero), Option.map_some, stored, if_pos hzero]
      · rw [if_pos hzero, Option.map_some, Option.map_some, overwrite_stored (hcap dst rfl) hzero]

/-- Every report has one line. A call reports its length and stores as much of it as fits, with a NUL behind it and
nothing behind the NUL; it succeeds exactly when all of it fits, as after a query for the size. -/
theorem formatReport_capacity {report : Report} (hcount : report.layers.length ≤ maxLayers) (h : report.InRange) :
    ∃ layers text, appendLayers 0 report.layers [] = some layers ∧ layers.length < 64 ∧
      text = summaryText layers report ∧ text.length < 512 ∧
      (∀ (dst : Bytes) (cap : Nat), cap ≤ dst.length →
        formatReport report (some dst) cap =
          ⟨if cap > text.length then .ok else .capacity,
            some (if cap = 0 then dst
              else text.take (min text.length (cap - 1)) ++ 0 :: dst.drop (min text.length (cap - 1) + 1)),
            text.length⟩) ∧
      formatReport report none 0 = ⟨.capacity, none, text.length⟩ ∧
      ∀ (dst : Bytes) (cap : Nat), cap = (formatReport report none 0).written + 1 → cap ≤ dst.length →
        (formatReport report (some dst) cap).status = .ok ∧
          (formatReport report (some dst) cap).out = some (text ++ 0 :: dst.drop cap) := by
  obtain ⟨layers, hlayers, hlen⟩ := @appendLayers_of report.layers 0 [] (by
    unfold maxLayers at hcount
    rw [List.length_nil]
    omega)
  rw [List.length_nil, Nat.zero_add] at hlen
  unfold maxLayers at hcount
  have hshort := @length_summaryText_lt layers report h (by omega)
  have hcall : ∀ (dst : Bytes) (cap : Nat), cap ≤ dst.length → formatReport report (some dst) cap = _ :=
    fun dst cap hcap => formatReport_of hcount hlayers hshort (fun hnone => nomatch hnone)
      (fun d hd => Option.mem_some.mp hd ▸ hcap)
  have hquery : formatReport report none 0 = _ :=
    formatReport_of hcount hlayers hshort (fun _ => rfl) (fun _ hnone => nomatch hnone)
  rw [if_neg (Nat.not_lt_zero _)] at hquery
  refine ⟨layers, _, hlayers, by omega, rfl, hshort, hcall, hquery, fun dst cap hsize hcap => ?_⟩
  rw [hquery] at hsize
  dsimp only at hsize
  rw [hcall dst cap hcap, Option.map_some, stored, if_pos (by omega), if_neg (show cap ≠ 0 by omega),
    Nat.min_eq_left (by omega), List.take_length, ← hsize]
  exact ⟨rfl, rfl⟩

/-- The report of a query for an address. -/
def queryReport : Report :=
  { Report.zero with
    layers := [.ethernet, .ipv4, .udp, .dns], frameLength := 71, parsedLength := 71, payloadLength := 29,
    etherType := 0x0800, ipProtocol := 17, sourceIpv4 := 0xC0000201, destinationIpv4 := 0xC6336402,
    sourcePort := 53000, destinationPort := 53, dnsIdentifier := 0x1234, dnsQuestionCount := 1,
    checksumsChecked := 2, checksumsValid := 2 }

def queryLine : Bytes :=
  ["layers=ethernet>ipv4>udp>dns", " diagnostics=0x00000000", " frame=71 parsed=71 payload=29", " ethertype=0x0800",
    " arp_opcode=0 ip_protocol=17", " src=192.0.2.1 dst=198.51.100.2", " ports=53000->53 icmp_type=0",
    " dns_id=0x1234 dns_questions=1", " tcp_flags=0x00 http_bytes=0", " checksums=2/2"].flatMap fun s =>
      L10.ascii s.toList

theorem formatReport_capacity_dns :
    formatReport queryReport (some (List.replicate 300 1)) 300 =
        ⟨.ok, some (queryLine ++ 0 :: List.replicate 42 1), 257⟩ ∧
      formatReport queryReport (some (List.replicate 41 1)) 40 = ⟨.capacity, some (queryLine.take 39 ++ [0, 1]), 257⟩ ∧
      formatReport queryReport none 0 = ⟨.capacity, none, 257⟩ := by
  obtain ⟨layers, text, hlayers, -, htext, -, hcall, hquery, -⟩ := @formatReport_capacity queryReport (by decide)
    { frame := by decide, parsed := by decide, payload := by decide, http := by decide, checked := by decide,
      valid := by decide }
  obtain rfl : layers = L10.ascii "ethernet>ipv4>udp>dns".toList :=
    Option.some.inj (hlayers.symm.trans (by decide +kernel))
  have hline : summaryText (L10.ascii "ethernet>ipv4>udp>dns".toList) queryReport = queryLine := by decide +kernel
  have hlen : queryLine.length = 257 := by decide +kernel
  rw [hline] at htext
  rw [htext, hlen] at hcall hquery
  have hwhole := hcall (List.replicate 300 1) 300 (by rw [List.length_replicate])
  have hcut := hcall (List.replicate 41 1) 40 (by rw [List.length_replicate]; decide)
  exact ⟨hwhole.trans (by decide +kernel), hcut.trans (by decide +kernel), hquery⟩

/-! ## The reports of the diagnoser -/

theorem diagnoseFrame_inRange {data : Bytes} (hsize : data.length ≤ sizeMax) :
    (diagnoseFrame data).2.InRange ∧ (diagnoseFrame data).2.layers.length ≤ maxLayers := by
  obtain ⟨last, h, -⟩ := diagnoseFrame_ends data
  have hframe := h.frame
  have hparsed := h.parsed_le
  have hpayload := h.payload_le
  have hchecked := h.checked_le
  have hvalid := h.valid_le
  have hhttp : (diagnoseFrame data).2.httpMessageLength ≤ (diagnoseFrame data).2.frameLength := by
    by_cases hmem : .http ∈ (diagnoseFrame data).2.layers
    · rw [h.http_length hmem]
      exact hpayload
    · have hzero := mt h.http.mp hmem
      omega
  refine ⟨⟨by omega, by omega, by omega, by omega, ?_, ?_⟩, ?_⟩
  · exact le_trans hchecked (by decide)
  · exact le_trans (le_trans hvalid hchecked) (by decide)
  · have hpaths : ∀ path ∈ paths, path.length ≤ maxLayers := by decide
    exact hpaths _ h.path

theorem formatReport_diagnoseFrame {data dst : Bytes} (hsize : data.length ≤ sizeMax) (hdst : 512 ≤ dst.length) :
    (formatReport (diagnoseFrame data).2 (some dst) 512).status = .ok := by
  obtain ⟨hrange, hcount⟩ := diagnoseFrame_inRange hsize
  have hcount' := hcount
  unfold maxLayers at hcount'
  obtain ⟨layers, hlayers, hlen⟩ := @appendLayers_of (diagnoseFrame data).2.layers 0 [] (by
    rw [List.length_nil]
    omega)
  rw [List.length_nil, Nat.zero_add] at hlen
  have hshort := @length_summaryText_lt layers _ hrange (by omega)
  have hcall := @formatReport_of _ layers hcount hlayers hshort (some dst) 512 (fun hnone => nomatch hnone)
    (fun d hd => Option.mem_some.mp hd ▸ hdst)
  rw [hcall]
  exact if_pos hshort

end TcpipCourse.L12
