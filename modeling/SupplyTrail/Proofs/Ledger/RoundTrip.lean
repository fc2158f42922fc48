import SupplyTrail.Proofs.Ledger.Envelope
/-!
# RoundTrip — how deep arguments may nest to be read back

A call without doubles comes back from its text exactly as long as its arguments fit in what the reader leaves them of
its room: all of it but one level for the call itself, and one more for the invocation around it.  Arguments that nest
deeper make the text unreadable; they never come back as something else (`readBack_iff_depth`).
-/
namespace SupplyTrail

open Json

namespace ContractCall

/-- The call that was handed over for a simulation, if the text is one. -/
def ofHex? (content : String) : Option ContractCall := do
  let bytes ← Text.decodeHex? content
  let source ← Json.Source.ofBytes? bytes
  (decode source).toOption

theorem ofHex?_encode (c : ContractCall) : ofHex? c.encode = (decode (imageIn maxDepth c.toJson)).toOption := by
  rw [ofHex?, encode, Text.decodeHex?_encodeHex]
  simp only [Option.bind_eq_bind, Option.bind_some, Json.ofBytes?_renderIn]

theorem depth_toJson (c : ContractCall) : c.toJson.depth = c.args.depth + 1 := by
  simp [toJson, Json.depth, Json.depthMembers]

theorem noReal_toJson {c : ContractCall} (h : c.args.NoReal) : c.toJson.NoReal := by
  simp [toJson, Json.NoReal, Json.NoRealMembers, h]

theorem imageIn_toJson (c : ContractCall) (room : Nat) :
    imageIn (room + 1) c.toJson = .object [(some "contractId", .string c.contractId),
      (some "function", .string c.function), (some "args", imageIn room c.args)] := by
  simp only [toJson, imageIn, membersImageIn, Reader.within_of_pos (Nat.succ_pos room), Nat.add_sub_cancel]

theorem decode_unreadable (contractId function : String) {args : Source} (h : args.toJson? = none) :
    decode (.object [(some "contractId", .string contractId), (some "function", .string function),
      (some "args", args)]) = .error .unreadable := by
  have hcheck : (Field.of .fault "args" Decoder.value).check args = .error .unreadable :=
    Field.check_error (by rw [Decoder.value, h])
  have hlocate : form.locate (.object [(some "contractId", .string contractId),
      (some "function", .string function), (some "args", args)]) = .error .unreadable := by
    rw [Form.locate]
    change ((Field.of .fault "args" Decoder.value).check args >>= _ >>= _) = _
    rw [hcheck]
    rfl
  rw [decode, hlocate]
  rfl

/-- **A call is read in some room exactly if its arguments fit in what is left of it.** -/
theorem decode_imageIn {c : ContractCall} (hreal : c.args.NoReal) (hord : c.args.Ordered) (room : Nat) :
    decode (imageIn (room + 1) c.toJson) = if c.args.depth ≤ room then .ok c else .error .unreadable := by
  by_cases hdepth : c.args.depth ≤ room
  · rw [if_pos hdepth, imageIn_eq_image c.toJson (by rw [depth_toJson]; omega), image_eq (noReal_toJson hreal),
      Invocation.decode_call hord]
  · rw [if_neg hdepth, imageIn_toJson]
    exact decode_unreadable _ _ (toJson?_imageIn c.args (by omega))

end ContractCall

namespace Invocation

theorem ofBytes?_toBytes_imageIn (i : Invocation) :
    ofBytes? i.toBytes = (decode (imageIn maxDepth i.toJson)).toOption := by
  rw [ofBytes?, toBytes, Json.ofBytes?_renderIn]
  rfl

theorem imageIn_toJson (i : Invocation) (room : Nat) :
    imageIn (room + 1) i.toJson = .object [(some "call", imageIn room i.call.toJson),
      (some "source", .string i.source), (some "networkPassphrase", .string i.passphrase),
      (some "nonce", .string i.nonce)] := by
  simp only [toJson, imageIn, membersImageIn, Reader.within_of_pos (Nat.succ_pos room), Nat.add_sub_cancel]

theorem decode_unreadable (source passphrase nonce : String) {call : Source}
    (h : ContractCall.decode call = .error .unreadable) :
    decode (.object [(some "call", call), (some "source", .string source),
      (some "networkPassphrase", .string passphrase), (some "nonce", .string nonce)]) = .error .unreadable := by
  have hcheck : (Field.of .fault "call" ContractCall.decode).check call = .error .unreadable := Field.check_error h
  have hlocate : form.locate (.object [(some "call", call), (some "source", .string source),
      (some "networkPassphrase", .string passphrase), (some "nonce", .string nonce)]) = .error .unreadable := by
    rw [Form.locate]
    change ((Field.of .fault "call" ContractCall.decode).check call >>= _ >>= _) = _
    rw [hcheck]
    rfl
  rw [decode, hlocate]
  rfl

/-- **An invocation is read in some room exactly if its arguments fit in what the call leaves of it.** -/
theorem decode_imageIn {i : Invocation} (hreal : i.call.args.NoReal) (hord : i.call.args.Ordered) (room : Nat) :
    decode (imageIn (room + 2) i.toJson) = if i.call.args.depth ≤ room then .ok i else .error .unreadable := by
  by_cases hdepth : i.call.args.depth ≤ room
  · rw [if_pos hdepth, imageIn_eq_image i.toJson (by rw [depth_toJson]; omega), image_eq (noReal_toJson hreal),
      decode_toSource hord]
  · rw [if_neg hdepth, imageIn_toJson]
    refine decode_unreadable _ _ _ ?_
    rw [ContractCall.decode_imageIn hreal hord, if_neg hdepth]

/-- **What is signed comes back exactly if its arguments nest at most 125 deep, and what is simulated exactly if they
nest at most 126 deep**; from deeper ones nothing comes back. -/
theorem readBack_iff_depth (i : Invocation) (hreal : i.call.args.NoReal) (hord : i.call.args.Ordered) :
    (ofBytes? i.toBytes = some i ↔ i.call.args.depth ≤ 125) ∧
    (125 < i.call.args.depth → ofBytes? i.toBytes = none) ∧
    (ContractCall.ofHex? i.call.encode = some i.call ↔ i.call.args.depth ≤ 126) ∧
    (126 < i.call.args.depth → ContractCall.ofHex? i.call.encode = none) := by
  have hsigned := i.ofBytes?_toBytes_imageIn
  have hcall := i.call.ofHex?_encode
  rw [show maxDepth = 125 + 2 from rfl, decode_imageIn hreal hord] at hsigned
  rw [show maxDepth = 126 + 1 from rfl, ContractCall.decode_imageIn hreal hord] at hcall
  rw [hsigned, hcall]
  refine ⟨?_, fun h => ?_, ?_, fun h => ?_⟩
  · split
    · exact iff_of_true rfl ‹_›
    · exact iff_of_false nofun ‹_›
  · rw [if_neg (by omega)]
    rfl
  · split
    · exact iff_of_true rfl ‹_›
    · exact iff_of_false nofun ‹_›
  · rw [if_neg (by omega)]
    rfl

namespace Nested

/-- Objects one inside the other, each with a number at the edge of its range beside the next, around a text that needs
escapes. -/
def value : Nat → Json
  | 0 => .string "\"\\\n\x01é😀"
  | n + 1 => .object [("", .word 18446744073709551615), ("é😀\"", value n)]

theorem depth_value : ∀ n, (value n).depth = n
  | 0 => rfl
  | n + 1 => by
    simp only [value, depth, depthMembers, depth_value n, word]
    omega

theorem noReal_value : ∀ n, (value n).NoReal
  | 0 => trivial
  | n + 1 => ⟨trivial, noReal_value n, trivial⟩

theorem ordered_value : ∀ n, (value n).Ordered
  | 0 => trivial
  | n + 1 => ⟨show ["", "é😀\""].Pairwise (· < ·) by decide, trivial, ordered_value n, trivial⟩

def invocation (n : Nat) : Invocation :=
  ⟨⟨"CCONTRACT", "add_tracking_event", value n⟩, "GSOURCE", "Test SDF Network ; September 2015", "00000000000000ff"⟩

end Nested

/-- At each limit the value comes back, and one level deeper it does not. -/
theorem readBack_nested :
    ((Nested.value 125).NoReal ∧ (Nested.value 125).Ordered) ∧
    ofBytes? (Nested.invocation 125).toBytes = some (Nested.invocation 125) ∧
    ofBytes? (Nested.invocation 126).toBytes = none ∧
    ContractCall.ofHex? (Nested.invocation 126).call.encode = some (Nested.invocation 126).call ∧
    ContractCall.ofHex? (Nested.invocation 127).call.encode = none := by
  have hread (n : Nat) := readBack_iff_depth (Nested.invocation n) (Nested.noReal_value n) (Nested.ordered_value n)
  have hdepth (n : Nat) : (Nested.invocation n).call.args.depth = n := Nested.depth_value n
  refine ⟨⟨Nested.noReal_value 125, Nested.ordered_value 125⟩, ?_, ?_, ?_, ?_⟩
  · exact (hread 125).1.2 (Nat.le_of_eq (hdepth 125))
  · exact (hread 126).2.1 (by rw [hdepth]; decide)
  · exact (hread 126).2.2.1.2 (Nat.le_of_eq (hdepth 126))
  · exact (hread 127).2.2.2 (by rw [hdepth]; decide)

end Invocation

end SupplyTrail
