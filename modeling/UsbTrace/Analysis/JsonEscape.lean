import UsbTrace.Model.TextBuffers
import UsbTrace.Interface.JsonText

/-!
# What `usbtrace_json_escape` leaves in its buffer

An escape is 1, 2 or 6 bytes.  The loop writes whole escapes, as long as there is room for
the next one and two places at least (`jsonEscapeLoopChecked_eq`); what it leaves is the
body of a JSON string that stands for a prefix of the text.
-/

set_option autoImplicit false

namespace UsbTrace.Analysis

open UsbTrace.Library UsbTrace.Model UsbTrace.Interface

/-! ## The escape of a byte -/

/-- The escape of a byte. -/
def escapeByte (c : UInt8) : List UInt8 :=
  if c = '"'.toUInt8 ∨ c = '\\'.toUInt8 then ['\\'.toUInt8, c]
  else if c = '\n'.toUInt8 then bytesOf ['\\', 'n']
  else if c = '\t'.toUInt8 then bytesOf ['\\', 't']
  else if c = '\r'.toUInt8 then bytesOf ['\\', 'r']
  else if c < 0x20 then bytesOf ('\\' :: 'u' :: hex4 c.toNat)
  else [c]

theorem escapeByte_ne_nil (c : UInt8) : escapeByte c ≠ [] := by
  unfold escapeByte
  split_ifs <;> exact List.cons_ne_nil _ _

/-- The digits of a control byte are its code unit, and it is one byte of UTF-8. -/
theorem hex4_codeUnit {n : ℕ} (h : n < 0x20) :
    CodeUnit (bytesOf (hex4 n)) (Char.ofNat n).toNat ∧
    String.utf8EncodeChar (Char.ofNat n) = [UInt8.ofNat n] := by
  have hall : ∀ n < 0x20, (bytesOf (hex4 n)).length = 4 ∧
      hexValue (bytesOf (hex4 n)) = some (Char.ofNat n).toNat ∧
      String.utf8EncodeChar (Char.ofNat n) = [UInt8.ofNat n] := by decide
  obtain ⟨hlen, hval, hutf⟩ := hall n h
  exact ⟨⟨hlen, hval⟩, hutf⟩

/-- The escape of a byte stands for that byte. -/
theorem escapeByte_body (c : UInt8) : StringBody (escapeByte c) [c] := by
  unfold escapeByte
  split_ifs with hself hn ht hr hcontrol
  · rcases hself with rfl | rfl <;> exact .escape (by decide) .nil
  · subst hn
    exact .escape (by decide) .nil
  · subst ht
    exact .escape (by decide) .nil
  · subst hr
    exact .escape (by decide) .nil
  · obtain ⟨hunit, hutf⟩ := hex4_codeUnit (UInt8.lt_iff_toNat_lt.mp hcontrol)
    have hbody := StringBody.unicode hunit .nil
    rwa [List.append_nil, List.append_nil, hutf, UInt8.ofNat_toNat] at hbody
  · rw [not_or] at hself
    exact .plain hself.1 hself.2 (UInt8.not_lt.mp hcontrol) .nil

/-- The escapes of a text stand for it. -/
theorem escapes_body (text : List UInt8) : StringBody (text.flatMap escapeByte) text := by
  induction text with
  | nil => exact .nil
  | cons c text ih =>
    rw [List.flatMap_cons]
    exact (escapeByte_body c).append ih

/-! ## The loop -/

/-- The escape of a control byte takes six places. -/
theorem unicodeEscape_length {c : UInt8} (h : c < 0x20) :
    (bytesOf ('\\' :: 'u' :: hex4 c.toNat)).length = 6 := by
  have hdigits := (hex4_codeUnit (UInt8.lt_iff_toNat_lt.mp h)).1.length
  rw [bytesOf, List.map_cons, List.map_cons, List.length_cons, List.length_cons]
  exact congrArg (· + 2) hdigits

theorem jsonEscapeLoopChecked_nul {dstsz o : ℕ} (src buf : List UInt8) :
    jsonEscapeLoopChecked dstsz (0 :: src) o buf = some (buf, o) := by
  rw [jsonEscapeLoopChecked, if_neg fun h => h.1 rfl]

/-- Where there is room for it, the escape is written.
SOURCE: usbtrace_cli.c:84-111 -/
theorem jsonEscapeLoopChecked_room {old text buf : List UInt8} (h : Written old text buf)
    {c : UInt8} (hc : c ≠ 0) (src : List UInt8)
    (hroom : text.length + max 2 (escapeByte c).length < old.length) :
    ∃ buf', Written old (text ++ escapeByte c) buf' ∧
      jsonEscapeLoopChecked old.length (c :: src) text.length buf =
        jsonEscapeLoopChecked old.length src (text.length + (escapeByte c).length) buf' := by
  obtain ⟨buf', hstore, hbuf'⟩ := h.storeAll (escapeByte c) (by omega)
  rw [jsonEscapeLoopChecked, if_pos ⟨hc, by omega⟩]
  by_cases hself : c = '"'.toUInt8 ∨ c = '\\'.toUInt8
  · rw [escapeByte, if_pos hself] at hstore hbuf' ⊢
    exact ⟨buf', hbuf', by rw [if_pos hself, hstore]; rfl⟩
  by_cases hn : c = '\n'.toUInt8
  · rw [escapeByte, if_neg hself, if_pos hn] at hstore hbuf' ⊢
    exact ⟨buf', hbuf', by rw [if_neg hself, if_pos hn, hstore]; rfl⟩
  by_cases ht : c = '\t'.toUInt8
  · rw [escapeByte, if_neg hself, if_neg hn, if_pos ht] at hstore hbuf' ⊢
    exact ⟨buf', hbuf', by rw [if_neg hself, if_neg hn, if_pos ht, hstore]; rfl⟩
  by_cases hr : c = '\r'.toUInt8
  · rw [escapeByte, if_neg hself, if_neg hn, if_neg ht, if_pos hr] at hstore hbuf' ⊢
    exact ⟨buf', hbuf', by rw [if_neg hself, if_neg hn, if_neg ht, if_pos hr, hstore]; rfl⟩
  rw [if_neg hself, if_neg hn, if_neg ht, if_neg hr]
  rw [escapeByte, if_neg hself, if_neg hn, if_neg ht, if_neg hr] at hroom ⊢
  by_cases hcontrol : c < 0x20
  · rw [if_pos hcontrol] at hroom ⊢
    rw [unicodeEscape_length hcontrol] at hroom
    obtain ⟨buf'', hprint, hbuf''⟩ :=
      h.snprintfAt 0 (bytesOf ('\\' :: 'u' :: hex4 c.toNat))
    rw [List.take_of_length_le (by rw [unicodeEscape_length hcontrol]; omega)] at hbuf''
    exact ⟨buf'', hbuf'', by rw [if_pos hcontrol, if_neg (by omega), hprint]; rfl⟩
  · rw [if_neg hcontrol] at hroom ⊢
    obtain ⟨buf'', hput, hbuf''⟩ := h.store c (by omega)
    exact ⟨buf'', hbuf'', by rw [if_neg hcontrol, hput]; rfl⟩

/-- An escape of more than two bytes is one of a control byte without a short escape. -/
theorem of_two_lt_escapeByte {c : UInt8} (h : 2 < (escapeByte c).length) :
    ¬ (c = '"'.toUInt8 ∨ c = '\\'.toUInt8) ∧ c ≠ '\n'.toUInt8 ∧ c ≠ '\t'.toUInt8 ∧
    c ≠ '\r'.toUInt8 ∧ c < 0x20 := by
  unfold escapeByte at h
  split_ifs at h with hself hn ht hr hcontrol
  · exact absurd h (Nat.lt_irrefl 2)
  · exact absurd h (Nat.lt_irrefl 2)
  · exact absurd h (Nat.lt_irrefl 2)
  · exact absurd h (Nat.lt_irrefl 2)
  · exact ⟨hself, hn, ht, hr, hcontrol⟩
  · exact absurd h (show ¬ 2 < 1 by decide)

/-- Where there is no room for the escape, the loop is over.
SOURCE: usbtrace_cli.c:81, 103-105 -/
theorem jsonEscapeLoopChecked_full {dstsz o : ℕ} {c : UInt8}
    (hroom : ¬ o + max 2 (escapeByte c).length < dstsz) (src buf : List UInt8) :
    jsonEscapeLoopChecked dstsz (c :: src) o buf = some (buf, o) := by
  by_cases hgo : c ≠ 0 ∧ o + 2 < dstsz
  · obtain ⟨hself, hn, ht, hr, hcontrol⟩ := of_two_lt_escapeByte (c := c) (by omega)
    have hlen : (escapeByte c).length = 6 := by
      rw [escapeByte, if_neg hself, if_neg hn, if_neg ht, if_neg hr, if_pos hcontrol]
      exact unicodeEscape_length hcontrol
    rw [jsonEscapeLoopChecked, if_pos hgo, if_neg hself, if_neg hn, if_neg ht, if_neg hr,
      if_pos hcontrol, if_pos (by omega)]
  · rw [jsonEscapeLoopChecked, if_neg hgo]

/-- **The loop** writes the escapes for which there is room.
SOURCE: usbtrace_cli.c:81-112 -/
theorem jsonEscapeLoopChecked_eq {old text buf : List UInt8} (h : Written old text buf)
    {src : List UInt8} (hnul : 0 ∉ src) :
    ∃ buf', Written old (text ++ encodeWithin escapeByte 2 old.length text.length src) buf' ∧
      jsonEscapeLoopChecked old.length (src ++ [0]) text.length buf =
        some (buf', (text ++ encodeWithin escapeByte 2 old.length text.length src).length) := by
  induction src generalizing text buf with
  | nil =>
    rw [encodeWithin, List.append_nil]
    exact ⟨buf, h, jsonEscapeLoopChecked_nul [] buf⟩
  | cons c src ih =>
    obtain ⟨hc, hnul⟩ := not_or.mp (mt List.mem_cons.mpr hnul)
    rw [encodeWithin, List.cons_append]
    split_ifs with hroom
    · obtain ⟨buf₁, h₁, hstep⟩ :=
        jsonEscapeLoopChecked_room h (Ne.symm hc) (src ++ [0]) hroom
      obtain ⟨buf', hbuf', hrest⟩ := ih h₁ hnul
      rw [List.length_append] at hrest hbuf'
      rw [hstep, hrest, ← List.append_assoc]
      exact ⟨buf', hbuf', rfl⟩
    · rw [List.append_nil]
      exact ⟨buf, h, jsonEscapeLoopChecked_full hroom _ buf⟩

/-! ## The text without the buffer -/

/-- The escape of a character. -/
def escapeChar (c : Char) : CStr :=
  if c = '"' ∨ c = '\\' then ['\\', c]
  else if c = '\n' then ['\\', 'n']
  else if c = '\t' then ['\\', 't']
  else if c = '\r' then ['\\', 'r']
  else if c.toNat < 0x20 then '\\' :: 'u' :: hex4 c.toNat
  else [c]

theorem bytesOf_escapeChar {c : Char} (hc : c.toNat < 256) :
    bytesOf (escapeChar c) = escapeByte c.toUInt8 := by
  have hbyte {d : Char} (hd : d.toNat < 256) : d.toUInt8.toNat = d.toNat :=
    Nat.mod_eq_of_lt hd
  have hinj {d : Char} (hd : d.toNat < 256) : c.toUInt8 = d.toUInt8 ↔ c = d := by
    rw [← UInt8.toNat_inj, hbyte hc, hbyte hd]
    exact Char.toNat_inj
  have hcontrol : c.toUInt8 < 0x20 ↔ c.toNat < 0x20 := by
    rw [UInt8.lt_iff_toNat_lt, hbyte hc]
    rfl
  unfold escapeChar escapeByte
  rw [hbyte hc]
  simp only [hinj (d := '"') (by decide), hinj (d := '\\') (by decide),
    hinj (d := '\n') (by decide), hinj (d := '\t') (by decide), hinj (d := '\r') (by decide),
    hcontrol, apply_ite bytesOf]
  rfl

/-- A step of the loop over characters. -/
theorem jsonEscapeLoop_step (c : Char) (dstsz : ℕ) (src dst : CStr) :
    jsonEscapeLoop dstsz (c :: src) dst =
      if dst.length + max 2 (escapeChar c).length < dstsz then
        jsonEscapeLoop dstsz src (dst ++ escapeChar c)
      else dst := by
  by_cases hgo : dst.length + 2 < dstsz
  · have hshort {e : CStr} (he : e.length ≤ 2) : jsonEscapeLoop dstsz src (dst ++ e) =
        if dst.length + max 2 e.length < dstsz then jsonEscapeLoop dstsz src (dst ++ e)
        else dst := (if_pos (by omega)).symm
    rw [jsonEscapeLoop, if_pos hgo]
    unfold escapeChar
    by_cases hself : c = '"' ∨ c = '\\'
    · simp only [if_pos hself]
      exact hshort (Nat.le_refl 2)
    by_cases hn : c = '\n'
    · simp only [if_neg hself, if_pos hn]
      exact hshort (Nat.le_refl 2)
    by_cases ht : c = '\t'
    · simp only [if_neg hself, if_neg hn, if_pos ht]
      exact hshort (Nat.le_refl 2)
    by_cases hr : c = '\r'
    · simp only [if_neg hself, if_neg hn, if_neg ht, if_pos hr]
      exact hshort (Nat.le_refl 2)
    by_cases hcontrol : c.toNat < 0x20
    · have hlen : ('\\' :: 'u' :: hex4 c.toNat).length = 6 :=
        congrArg (· + 2) (hex4_control hcontrol)
      simp only [if_neg hself, if_neg hn, if_neg ht, if_neg hr, if_pos hcontrol, hlen]
      split_ifs
      · omega
      · rfl
      · rfl
      · omega
    · simp only [if_neg hself, if_neg hn, if_neg ht, if_neg hr, if_neg hcontrol]
      exact hshort (Nat.le_succ 1)
  · rw [jsonEscapeLoop, if_neg hgo, if_neg (by omega)]

/-- The loop over characters writes the same escapes. -/
theorem jsonEscapeLoop_eq {src : CStr} (hsrc : ∀ c ∈ src, c.toNat < 256) (dstsz : ℕ)
    (dst : CStr) :
    bytesOf (jsonEscapeLoop dstsz src dst) =
      bytesOf dst ++ encodeWithin escapeByte 2 dstsz dst.length (bytesOf src) := by
  induction src generalizing dst with
  | nil => exact (List.append_nil _).symm
  | cons c src ih =>
    obtain ⟨hc, hsrc⟩ := List.forall_mem_cons.mp hsrc
    have hlen : (escapeChar c).length = (escapeByte c.toUInt8).length := by
      rw [← bytesOf_escapeChar hc, bytesOf, List.length_map]
    have hbytes : bytesOf (c :: src) = c.toUInt8 :: bytesOf src := rfl
    rw [jsonEscapeLoop_step, hbytes, encodeWithin, ← hlen]
    split_ifs
    · have happend : bytesOf (dst ++ escapeChar c) = bytesOf dst ++ bytesOf (escapeChar c) :=
        List.map_append
      rw [ih hsrc, List.length_append, happend, List.append_assoc, bytesOf_escapeChar hc]
    · exact (List.append_nil _).symm

/-- **The text and its buffer**: what the lines of JSON mode put between quotes is what the
buffer holds before its terminator. -/
theorem usbtraceJsonEscapeChecked_eq {src : CStr} (hsrc : ∀ c ∈ src, c.toNat < 256)
    (hnul : 0 ∉ bytesOf src) {dst : List UInt8} (hsize : 1 ≤ dst.length) :
    ∃ rest, usbtraceJsonEscapeChecked (bytesOf src ++ [0]) dst dst.length =
      some (bytesOf (usbtraceJsonEscape src dst.length) ++ 0 :: rest) := by
  obtain ⟨buf, hbuf, hloop⟩ := jsonEscapeLoopChecked_eq (written_nil hsize) hnul
  rw [List.nil_append, List.length_nil] at hbuf hloop
  rw [usbtraceJsonEscapeChecked, if_neg (by omega), hloop, Option.bind_some,
    usbtraceJsonEscape, jsonEscapeLoop_eq hsrc]
  exact ⟨_, hbuf.store_eq 0⟩

/-! ## The buffer -/

/-- **An escaped text in its buffer.** Whatever the text and the size, the function writes
inside the buffer and ends what it writes with a terminator.  Before that stands the body of
a JSON string: printable bytes, no quote outside an escape, and every reading of it is one
prefix of the text, all of it if there are two places more than its escapes take.
SOURCE: usbtrace_cli.c:74-117 -/
theorem json_escape_buffer (src dst : List UInt8) (hnul : 0 ∉ src) (hsize : 1 ≤ dst.length) :
    ∃ body, usbtraceJsonEscapeChecked (src ++ [0]) dst dst.length =
        some (body ++ 0 :: dst.drop (body.length + 1)) ∧
      body.length < dst.length ∧ (∀ b ∈ body, 0x20 ≤ b) ∧
      (∀ pre post, body = pre ++ quoteByte :: post → ∀ t, ¬ StringBody pre t) ∧
      (∃ text, text <+: src ∧ ∀ t, StringBody body t ↔ t = text) ∧
      ((src.flatMap escapeByte).length + 2 ≤ dst.length → StringBody body src) := by
  obtain ⟨buf, hbuf, hloop⟩ := jsonEscapeLoopChecked_eq (written_nil hsize) hnul
  obtain ⟨text, hprefix, htext⟩ :=
    @encodeWithin_stops _ _ escapeByte 2 dst.length 0 src
  rw [List.nil_append, List.length_nil] at hbuf hloop
  have hbody := escapes_body text
  rw [← htext] at hbody
  refine ⟨encodeWithin escapeByte 2 dst.length 0 src, ?_, hbuf.1, hbody.printable, ?_, ?_, ?_⟩
  · rw [usbtraceJsonEscapeChecked, if_neg (by omega), hloop, Option.bind_some]
    exact hbuf.store_eq 0
  · intro pre post heq
    rw [heq] at hbody
    exact hbody.no_quote
  · refine ⟨text, hprefix, fun t => ⟨fun h => h.unique hbody, ?_⟩⟩
    rintro rfl
    exact hbody
  · intro hroom
    rw [encodeWithin_all escapeByte_ne_nil (by decide) (by omega)]
    exact escapes_body src

/-- A quote and a control byte in eight bytes: there is no room for the last escape. -/
theorem json_escape_buffer_sample :
    usbtraceJsonEscapeChecked ([0x61, 0x22, 0x01] ++ [0]) (List.replicate 8 0xff) 8 =
      some ([0x61, 0x5c, 0x22] ++ 0 :: List.replicate 4 0xff) ∧
    ∃ text, text <+: [0x61, 0x22, 0x01] ∧ StringBody [0x61, 0x5c, 0x22] text := by
  obtain ⟨body, hrun, -, hprint, -, ⟨text, hprefix, htext⟩, -⟩ :=
    json_escape_buffer [0x61, 0x22, 0x01] (List.replicate 8 0xff) (by decide) (by decide)
  have hcomputed : usbtraceJsonEscapeChecked ([0x61, 0x22, 0x01] ++ [0]) (List.replicate 8 0xff) 8 =
      some ([0x61, 0x5c, 0x22] ++ 0 :: List.replicate 4 0xff) := by decide
  have hnul : (0 : UInt8) ∉ body := fun h => absurd (hprint 0 h) (by decide)
  have hrest : (0 : UInt8) ∉ (List.replicate 8 0xff).drop (body.length + 1) := fun h =>
    absurd (List.eq_of_mem_replicate (List.mem_of_mem_drop h)) (by decide)
  have hbody := (List.append_cons_inj_of_notMem hnul hrest).mp
    (Option.some.inj (hrun.symm.trans hcomputed))
  exact ⟨hcomputed, text, hprefix, hbody.1 ▸ (htext text).mpr rfl⟩

end UsbTrace.Analysis
