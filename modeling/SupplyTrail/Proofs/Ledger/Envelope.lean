import SupplyTrail.Proofs.Json.Forms
import SupplyTrail.Proofs.Json.Outline
import SupplyTrail.Rehearsal.Store
/-!
# Envelope — what the signed bytes stand for

The bytes of an invocation determine it but for the doubles in its arguments, and an invocation without doubles is read
back from its bytes as it was.
-/
namespace SupplyTrail

namespace Text

theorem hexValue_hexDigit : ∀ n < 16, hexValue (hexDigit n) = some n := by decide

/-- **Bytes are read back from their hexadecimal text.** -/
theorem decodeHex?_encodeHex (bytes : List UInt8) : decodeHex? (encodeHex bytes) = some bytes := by
  rw [decodeHex?, encodeHex, String.toList_ofList]
  induction bytes with
  | nil => rfl
  | cons b bs ih =>
    have hhigh := hexValue_hexDigit (b.toNat / 16) (by have := b.toNat_lt; omega)
    have hlow := hexValue_hexDigit (b.toNat % 16) (by omega)
    have hbyte : 16 * (b.toNat / 16) + b.toNat % 16 = b.toNat := by omega
    rw [hexOfBytes, bytesOfHex?, hhigh, hlow, ih]
    simp only [hbyte, UInt8.ofNat_toNat]

end Text

namespace Invocation

/-- **The bytes of an invocation determine its function, and its arguments but for their doubles.** -/
theorem call_of_toBytes {i j : Invocation} (h : i.toBytes = j.toBytes) :
    i.call.function = j.call.function ∧ i.call.args.outline = j.call.args.outline := by
  have houtline := Json.outline_eq_of_bytes h
  simp only [toJson, ContractCall.toJson, Json.outline, Json.membersOutline, Json.object.injEq, List.cons.injEq,
    Prod.mk.injEq, Json.string.injEq, true_and, and_true] at houtline
  exact ⟨houtline.1.2.1, houtline.1.2.2⟩

theorem depth_toJson (i : Invocation) : i.toJson.depth = i.call.args.depth + 2 := by
  simp [toJson, ContractCall.toJson, Json.depth, Json.depthMembers]

theorem noReal_toJson {i : Invocation} (h : i.call.args.NoReal) : i.toJson.NoReal := by
  simp [toJson, ContractCall.toJson, Json.NoReal, Json.NoRealMembers, h]

open Json Json.Decoder in
theorem decode_call {c : ContractCall} (h : c.args.Ordered) : ContractCall.decode c.toJson.toSource = .ok c := by
  have hargs : value c.args.toSource = .ok c.args := by rw [value, toJson?_toSource h]
  have hfits : ContractCall.form.Fits
      [("contractId", .string c.contractId), ("function", .string c.function), ("args", c.args.toSource)] := by
    refine ⟨show ["contractId", "function", "args"].Nodup by decide, ?_, fun _ h => h⟩
    simp only [List.forall_mem_cons, List.not_mem_nil, false_imp_iff, implies_true, and_true]
    exact ⟨⟨_, rfl, rfl⟩, ⟨_, rfl, rfl⟩, ⟨_, rfl, Field.check_of hargs⟩⟩
  obtain ⟨found, hfound, hvalue⟩ := hfits.locate
  have hid := need_of_found (d := text) (hvalue "contractId" (.string c.contractId) (by simp)) rfl
  have hfunction := need_of_found (d := text) (hvalue "function" (.string c.function) (by simp)) rfl
  have hlast := need_of_found (hvalue "args" c.args.toSource (by simp)) hargs
  have hlocate : ContractCall.form.locate c.toJson.toSource = .ok found := hfound
  rw [ContractCall.decode, hlocate]
  simp only [bind, Except.bind, hid, hfunction, hlast]
  rfl

open Json Json.Decoder in
theorem decode_toSource {i : Invocation} (h : i.call.args.Ordered) : decode i.toJson.toSource = .ok i := by
  have hfits : form.Fits [("call", i.call.toJson.toSource), ("source", .string i.source),
      ("networkPassphrase", .string i.passphrase), ("nonce", .string i.nonce)] := by
    refine ⟨show ["call", "source", "networkPassphrase", "nonce"].Nodup by decide, ?_, fun _ h => h⟩
    simp only [List.forall_mem_cons, List.not_mem_nil, false_imp_iff, implies_true, and_true]
    exact ⟨⟨_, rfl, Field.check_of (decode_call h)⟩, ⟨_, rfl, rfl⟩, ⟨_, rfl, rfl⟩, ⟨_, rfl, rfl⟩⟩
  obtain ⟨found, hfound, hvalue⟩ := hfits.locate
  have hcall := need_of_found (hvalue "call" i.call.toJson.toSource (by simp)) (decode_call h)
  have hsource := need_of_found (d := text) (hvalue "source" (.string i.source) (by simp)) rfl
  have hpassphrase := need_of_found (d := text) (hvalue "networkPassphrase" (.string i.passphrase) (by simp)) rfl
  have hnonce := need_of_found (d := text) (hvalue "nonce" (.string i.nonce) (by simp)) rfl
  have hlocate : form.locate i.toJson.toSource = .ok found := hfound
  rw [decode, hlocate]
  simp only [bind, Except.bind, hcall, hsource, hpassphrase, hnonce]
  rfl

/-- **An invocation is read back from its bytes**, if its arguments hold no double and nest at most 125 deep. -/
theorem ofBytes?_toBytes {i : Invocation} (hreal : i.call.args.NoReal) (hord : i.call.args.Ordered)
    (hdepth : i.call.args.depth ≤ 125) : ofBytes? i.toBytes = some i := by
  have hdeep : i.toJson.depth ≤ Json.maxDepth := by
    rw [depth_toJson, Json.maxDepth]
    omega
  rw [ofBytes?, toBytes, Json.ofBytes?_render (noReal_toJson hreal) hdeep]
  simp only [Option.bind_eq_bind, Option.bind_some, decode_toSource hord]
  rfl

end Invocation

theorem Rehearsal.Store.invocation?_encodeHex (payload : List UInt8) :
    invocation? (Text.encodeHex payload) = Invocation.ofBytes? payload := by
  rw [invocation?, Text.decodeHex?_encodeHex, Option.bind_some]

end SupplyTrail
