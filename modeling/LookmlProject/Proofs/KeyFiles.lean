import LookmlProject.Proofs.Credentials
import LookmlProject.Proofs.JsonRoundTrip
import LookmlProject.Proofs.Stores

/-! # Files for credentials

    A credential is decoded while its file is already open.  So a credential that
    cannot be decoded is reported, but the file is empty afterwards, **whatever it
    held and whether it was there or not** (`undecoded_empties_file`).  The route:

    • what is decoded was read from a JSON text, so that its own text is read as the
      same value (`parse_render_of_decode`);
    • the file is opened, and then written over (`Store.wrote_over`), so that in the
      end it has one of two texts: nothing, or the text of the credential. -/

namespace LookmlProject.Credential

theorem ofValue_text (encoded : String) : ofValue (.text encoded) = decode encoded := rfl

/-- The text of what was decoded is read as the same value. -/
theorem parse_render_of_decode {encoded : Value} {v : Json} (h : ofValue encoded = .ok v) :
    Json.parse v.render.toList = .ok v := by
  obtain ⟨text, _, hdecode⟩ := bind_eq_ok.mp h
  have hregular : v.Regular := by
    rw [decode] at hdecode
    split at hdecode
    · cases hdecode
    split at hdecode
    · cases hdecode
    split at hdecode
    · cases hdecode
    · exact Json.regular_of_parse hdecode
  rw [Json.render, String.toList_ofList]
  exact Json.parse_chars hregular

theorem writeTo_of_not_writable {store : Store} {path : String} {fault : Fault}
    (h : store.write path "" = .error fault) (encoded : Value) :
    writeTo store encoded (.text path) = (store, some fault) := by
  simp only [writeTo, Value.asTarget, h]

theorem writeTo_of_undecoded {store opened : Store} {path : String} {encoded : Value}
    {fault : Fault} (h : store.write path "" = .ok opened)
    (hdecode : ofValue encoded = .error fault) :
    writeTo store encoded (.text path) = (opened, some fault) := by
  simp only [writeTo, Value.asTarget, h, hdecode]
  rfl

theorem writeTo_of_decoded {store opened filled : Store} {path : String} {encoded : Value}
    {v : Json} (h : store.write path "" = .ok opened) (hdecode : ofValue encoded = .ok v)
    (hfilled : opened.write path v.render = .ok filled) :
    writeTo store encoded (.text path) = (filled, none) := by
  have hbind : (do opened.write path (← ofValue encoded).render) = .ok filled := by
    rw [hdecode]
    exact hfilled
  simp only [writeTo, Value.asTarget, h, hbind]

/-- **A CREDENTIAL THAT CANNOT BE DECODED EMPTIES ITS FILE.**  For every encoded value, every path
and every store:

* if no file can be opened at the path, that is the fault, and the store is as before;
* if one can be opened and the credential cannot be decoded, the fault of the decoding is reported,
  and the file is there and empty, so that it is as before only if it was there and empty;
* if the credential is decoded, there is no fault, and the file holds a JSON text that is read as
  the decoded value.

All other files and the folders are as before in each case. -/
theorem undecoded_empties_file (store : Store) (encoded : Value) (path : String) :
    ((store.target path).isWritable = false →
      ∃ fault, store.write path "" = .error fault ∧
        writeTo store encoded (.text path) = (store, some fault)) ∧
    ((store.target path).isWritable = true →
      (∀ fault, ofValue encoded = .error fault →
        ∃ after, writeTo store encoded (.text path) = (after, some fault) ∧
          Store.Wrote store path "" after ∧
          ∀ route, (store.target path).file? = some route →
            (after.read path = store.read path ↔ store.read path = .ok "")) ∧
      (∀ v, ofValue encoded = .ok v →
        ∃ after, writeTo store encoded (.text path) = (after, none) ∧
          Store.Wrote store path v.render after ∧ Json.parse v.render.toList = .ok v)) := by
  refine ⟨fun hclosed => ?_, fun hopen => ?_⟩
  · cases hwrite : store.write path "" with
    | error fault => exact ⟨fault, rfl, writeTo_of_not_writable hwrite encoded⟩
    | ok opened => exact absurd (Store.isWritable_of_write hwrite) (by rw [hclosed]; decide)
  · obtain ⟨opened, hwrite, hwrote⟩ := Store.exists_wrote hopen ""
    refine ⟨fun fault hfault => ?_, fun v hv => ?_⟩
    · refine ⟨opened, writeTo_of_undecoded hwrite hfault, hwrote, fun route hroute => ?_⟩
      rw [(hwrote.inside route hroute).1]
      exact eq_comm
    · obtain ⟨filled, hfilled, hover⟩ := Store.wrote_over hwrite v.render
      exact ⟨filled, writeTo_of_decoded hwrite hv hfilled, hover, parse_render_of_decode hv⟩

/-- A store with one key file. -/
def keyStore : Store := ⟨[(["key.json"], "old")], []⟩

/-- A credential with floating-point numbers, and with half a pair and a quote in a text. -/
def key : Json := .record [
  ([97], .list [.float 0.1, .float (-2e22), .float (0.0 / 0.0), .text [0xD83D, 34]]),
  ([98], .record [([99], .int (-12))])]

theorem key_regular : key.Regular := by
  refine ⟨by decide, ⟨trivial, trivial, trivial, trivial, trivial⟩, ⟨by decide, ?_, trivial⟩,
    trivial⟩
  show (Nat.toDigits 10 12).length ≤ 4300
  decide

/-- The key is decoded from its packed text: there is no apostrophe in it. -/
theorem decode_key : ofValue (.text (pack key.render)) = .ok key := by
  have hnone : '\'' ∉ key.chars := by decide +kernel
  rw [ofValue_text, decode_pack_render, Text.swapChar_of_not_mem hnone]
  exact Json.parse_chars key_regular

/-- The key file is filled with a credential that is decoded, and emptied by one that is not; where
there is no folder for it, it is not even opened. -/
theorem key_file_filled_or_emptied :
    (∃ encoded, encode key = .ok encoded ∧ ofValue (.text encoded) = .ok key ∧
      ∃ after, writeTo keyStore (.text encoded) (.text "key.json") = (after, none) ∧
        after.read "key.json" = .ok key.render ∧ Json.parse key.render.toList = .ok key) ∧
    (ofValue (.text "YQ") = .error .badBase64 ∧
      ∃ after, writeTo keyStore (.text "YQ") (.text "key.json") = (after, some .badBase64) ∧
        after.read "key.json" ≠ keyStore.read "key.json") ∧
    ∃ fault, writeTo keyStore (.text "YQ") (.text "d/key.json") = (keyStore, some fault) := by
  have hopen : (keyStore.target "key.json").isWritable = true := by decide +kernel
  have hroute : (keyStore.target "key.json").file? = some ["key.json"] := by decide +kernel
  refine ⟨⟨_, encode_of_regular key_regular, decode_key, ?_⟩, ⟨rfl, ?_⟩, ?_⟩
  · obtain ⟨after, hafter, hwrote, hparse⟩ :=
      ((undecoded_empties_file keyStore (.text (pack key.render)) "key.json").2 hopen).2 key
        decode_key
    exact ⟨after, hafter, (hwrote.inside _ hroute).1, hparse⟩
  · obtain ⟨after, hafter, _, hsame⟩ :=
      ((undecoded_empties_file keyStore (.text "YQ") "key.json").2 hopen).1 .badBase64 rfl
    have hold : keyStore.read "key.json" = .ok "old" := rfl
    refine ⟨after, hafter, fun heq => ?_⟩
    exact absurd (Except.ok.inj (hold.symm.trans ((hsame _ hroute).mp heq))) (by decide)
  · obtain ⟨fault, _, hfault⟩ :=
      (undecoded_empties_file keyStore (.text "YQ") "d/key.json").1 (by decide +kernel)
    exact ⟨fault, hfault⟩

/-- **A KEY FILE IS LOST, OR MADE FROM NOTHING.**  A credential that is no base64 is refused, and
yet the key file that held a text is empty, and one that was not there is there. -/
theorem refused_key_file_changed :
    decode "YQ" = .error .badBase64 ∧
    (keyStore.read "key.json" = .ok "old" ∧
      (writeTo keyStore (.text "YQ") (.text "key.json")).2 = some .badBase64 ∧
      (writeTo keyStore (.text "YQ") (.text "key.json")).1.read "key.json" = .ok "") ∧
    (Store.empty.contains "key.json" = false ∧
      (writeTo .empty (.text "YQ") (.text "key.json")).2 = some .badBase64 ∧
      (writeTo .empty (.text "YQ") (.text "key.json")).1.read "key.json" = .ok "") := by
  refine ⟨rfl, ⟨rfl, rfl, rfl⟩, rfl, rfl, rfl⟩

end LookmlProject.Credential
