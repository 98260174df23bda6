/-
Frames follow each other on a stream in one way only.

A stream of whole frames can be cut into frames in just one way, and no frame that was
left unfinished can be hidden in it: whatever frames come behind it, whole or
unfinished, there is no second way to read the octets that makes whole frames of them.

Two properties of a frame carry this. Its first line tells its length, so two frames
that begin alike are equally long. And its first line begins with a capital C, has no
other one, and has no octet that a value could end with. Behind an unfinished frame the
next octet is this C. In the first line of a frame it does not fit; in the body of one it
would mean that the rest of the body, which takes one line, lies in a first line, and the
body would not end as a value does.
-/
import SymbolQuery.Client.Outgoing
import SymbolQuery.Proofs.CompactText

set_option autoImplicit false

namespace SymbolQuery.Rpc

/-! ## The parts of a frame -/

/-- The first line of a frame, without its line feed. -/
def head (n : Nat) : List UInt8 := Text.encodeChars (lengthLine n).toList

/-- The octets of a value. -/
def body (v : Json) : List UInt8 := Text.encode v.compact

theorem frame_eq (v : Json) :
    frame v = head (body v).length ++ 0x0A :: 0x0D :: 0x0A :: body v := by
  have hbreaks : "\r\n\r\n" = "\r" ++ "\n\r\n" := by decide
  have hoctets : Text.encode "\n\r\n" = [0x0A, 0x0D, 0x0A] := by
    rw [Text.encode_eq_encodeChars]
    rfl
  have htext : frameText v.compact
      = lengthLine v.compact.utf8ByteSize ++ ("\n\r\n" ++ v.compact) := by
    unfold frameText lengthLine
    rw [hbreaks]
    simp only [String.append_assoc]
  rw [frame, htext, Text.encode_append, Text.encode_append, hoctets, body, Text.length_encode,
    Text.encode_eq_encodeChars, head]
  rfl

theorem length_frame (v : Json) :
    (frame v).length = (head (body v).length).length + (3 + (body v).length) := by
  rw [frame_eq, List.length_append]
  simp only [List.length_cons]
  omega

theorem frame_ne_nil (v : Json) : frame v ≠ [] := by
  rw [frame_eq]
  simp

/-! ## First lines -/

theorem newline_not_mem_head (n : Nat) : 0x0A ∉ head n :=
  Text.newline_not_mem_encodeChars (newline_not_mem_lengthLine n)

/-- The first line tells the length. -/
theorem head_injective {m n : Nat} (h : head m = head n) : m = n := by
  have hline : (lengthLine m).toList = (lengthLine n).toList := by
    have hread := congrArg Text.decode h
    rw [head, head, Text.decode_encodeChars, Text.decode_encodeChars] at hread
    exact Except.ok.inj hread
  rw [toList_lengthLine, toList_lengthLine] at hline
  have hdigits : Nat.toDigits 10 m = Nat.toDigits 10 n := by
    have hcons := List.append_cancel_left (List.append_cancel_right hline)
    exact (List.cons.inj hcons).2
  have hvalue : Nat.ofDigitChars 10 (Nat.toDigits 10 m) 0 = m := Nat.ofDigitChars_ten_toDigits
  rw [← hvalue, hdigits]
  exact Nat.ofDigitChars_ten_toDigits

/-- The characters of a first line behind its first one. -/
theorem exists_lengthLine (n : Nat) :
    ∃ s : List Char, (lengthLine n).toList = 'C' :: s ∧ 'C' ∉ s := by
  have hdigits : 'C' ∉ Nat.toDigits 10 n := fun h =>
    absurd (Text.isDigit_of_mem_toDigits h) (by decide)
  refine ⟨"ontent-Length:".toList ++ ' ' :: Nat.toDigits 10 n ++ ['\r'], ?_, ?_⟩
  · rw [toList_lengthLine]
    rfl
  · simp [hdigits]

/-- A first line begins with a capital C and has no other. -/
theorem exists_head (n : Nat) : ∃ tail : List UInt8, head n = 0x43 :: tail ∧ 0x43 ∉ tail := by
  obtain ⟨s, hs, hc⟩ := exists_lengthLine n
  have htail : UInt8.ofNat 'C'.val.toNat ∉ Text.encodeChars s :=
    Text.not_mem_encodeChars (by decide) hc
  refine ⟨Text.encodeChars s, ?_, htail⟩
  rw [head, hs]
  rfl

/-- What is no digit and not in the rest of a first line is not in it. -/
theorem not_mem_head {a : Char} (hascii : a.val.toNat ≤ 0x7F) (hdigit : a.isDigit = false)
    (hother : a ∉ lengthHeader ++ [' ', '\r']) (n : Nat) :
    UInt8.ofNat a.val.toNat ∉ head n := by
  have hdigits : a ∉ Nat.toDigits 10 n := fun h => by
    rw [Text.isDigit_of_mem_toDigits h] at hdigit
    cases hdigit
  have hline : a ∉ (lengthLine n).toList := by
    rw [List.mem_append, not_or] at hother
    rw [toList_lengthLine]
    simp_all
  exact Text.not_mem_encodeChars hascii hline

/-- What a value that is no number and no word ends with. -/
def closingOctets : List UInt8 := [0x22, 0x5D, 0x7D]

/-- None of these is in a first line. -/
theorem closing_not_mem_head (n : Nat) : ∀ b ∈ head n, b ∉ closingOctets := by
  intro b hb hclosing
  have hquote : UInt8.ofNat '"'.val.toNat ∉ head n :=
    not_mem_head (by decide) (by decide) (by decide) n
  have hbracket : UInt8.ofNat ']'.val.toNat ∉ head n :=
    not_mem_head (by decide) (by decide) (by decide) n
  have hbrace : UInt8.ofNat '\x7d'.val.toNat ∉ head n :=
    not_mem_head (by decide) (by decide) (by decide) n
  simp only [closingOctets, List.mem_cons, List.not_mem_nil, or_false] at hclosing
  obtain rfl | rfl | rfl := hclosing
  · exact hquote hb
  · exact hbracket hb
  · exact hbrace hb

/-! ## Bodies -/

theorem newline_not_mem_body (v : Json) : 0x0A ∉ body v := by
  rw [body, Text.encode_eq_encodeChars]
  exact Text.newline_not_mem_encodeChars (Json.newline_not_mem_compact v)

/-- A body with a capital C ends as only a value does. -/
theorem ends_of_capital {v : Json} (h : 0x43 ∈ body v) :
    ∃ front, ∃ b ∈ closingOctets, body v = front ++ [b] := by
  rw [body, Text.encode_eq_encodeChars] at h ⊢
  have hcapital : 'C' ∈ v.compact.toList := by
    by_contra hnot
    have hoctet : UInt8.ofNat 'C'.val.toNat ∉ Text.encodeChars v.compact.toList :=
      Text.not_mem_encodeChars (by decide) hnot
    exact hoctet h
  obtain ⟨s, c, hc, hs⟩ := Json.ends_of_capital hcapital
  rw [hs, Text.encodeChars_append]
  simp only [Json.closers, List.mem_cons, List.not_mem_nil, or_false] at hc
  obtain rfl | rfl | rfl := hc
  · exact ⟨_, 0x22, by decide, rfl⟩
  · exact ⟨_, 0x5D, by decide, rfl⟩
  · exact ⟨_, 0x7D, by decide, rfl⟩

/-! ## Octets that begin like a frame -/

/-- A part of some octets in which a mark is missing ends before the first mark. -/
theorem prefix_of_not_mem {line front back : List UInt8} {b : UInt8}
    (h : line <+: front ++ b :: back) (hb : b ∉ line) : line <+: front := by
  by_cases hlength : line.length ≤ front.length
  · exact List.prefix_of_prefix_length_le h (List.prefix_append front _) hlength
  · have hmark : front ++ [b] <+: line := by
      have hfront : front ++ [b] <+: front ++ b :: back := ⟨back, by simp⟩
      apply List.prefix_of_prefix_length_le hfront h
      simp only [List.length_append, List.length_singleton]
      omega
    exact absurd (hmark.subset (by simp)) hb

/-- The octets of frames, whole or unfinished, as far as can be told from the front of them. -/
structure HeadFirst (octets : List UInt8) : Prop where
  /-- The first octet, if there is one, is that of a first line. -/
  starts : ∀ b rest, octets = b :: rest → b = 0x43
  /-- Before the first line feed no value ends. -/
  unclosed : ∀ line, line <+: octets → 0x0A ∉ line → ∀ b ∈ line, b ∉ closingOctets

theorem HeadFirst.nil : HeadFirst [] where
  starts b rest h := by cases h
  unclosed line hline _ b hb := by
    rw [List.prefix_nil.mp hline] at hb
    cases hb

theorem HeadFirst.mono {xs ys : List UInt8} (hy : HeadFirst ys) (h : xs <+: ys) :
    HeadFirst xs where
  starts b rest hx := by
    obtain ⟨back, rfl⟩ := h
    exact hy.starts b (rest ++ back) (by rw [hx, List.cons_append])
  unclosed line hline := hy.unclosed line (hline.trans h)

/-- What comes behind a whole frame does not matter. -/
theorem HeadFirst.frame_append (v : Json) (back : List UInt8) : HeadFirst (frame v ++ back) where
  starts b rest h := by
    obtain ⟨tail, htail, _⟩ := exists_head (body v).length
    rw [frame_eq, htail] at h
    exact (List.cons.inj h).1.symm
  unclosed line hline hfeed b hb := by
    rw [frame_eq, List.append_assoc] at hline
    exact closing_not_mem_head _ b ((prefix_of_not_mem hline hfeed).subset hb)

theorem HeadFirst.append {xs ys : List UInt8} (hx : HeadFirst xs) (hy : HeadFirst ys) :
    HeadFirst (xs ++ ys) where
  starts b rest h := by
    cases xs with
    | nil => exact hy.starts b rest h
    | cons x xs => exact hx.starts b xs (by rw [(List.cons.inj h).1])
  unclosed line hline hfeed b hb := by
    by_cases hlength : line.length ≤ xs.length
    · have hfront := List.prefix_of_prefix_length_le hline (List.prefix_append xs ys) hlength
      exact hx.unclosed line hfront hfeed b hb
    · have hfront := List.prefix_of_prefix_length_le (List.prefix_append xs ys) hline (by omega)
      obtain ⟨back, rfl⟩ := hfront
      have hback : back <+: ys := (List.prefix_append_right_inj xs).mp hline
      rw [List.mem_append, not_or] at hfeed
      obtain hb | hb := List.mem_append.mp hb
      · exact hx.unclosed xs (List.prefix_refl xs) hfeed.1 b hb
      · exact hy.unclosed back hback hfeed.2 b hb

theorem HeadFirst.writings (ws : List Writing) : HeadFirst (ws.flatMap Writing.octets) := by
  induction ws with
  | nil => exact HeadFirst.nil
  | cons w ws ih =>
    have hframe : w.octets <+: frame w.message ++ [] := by
      rw [List.append_nil]
      exact List.take_prefix w.delivered (frame w.message)
    rw [List.flatMap_cons]
    exact ((HeadFirst.frame_append w.message []).mono hframe).append ih

/-! ## One way to cut -/

/-- What stands in front of the first line feed is determined. -/
theorem line_inj {line line' rest rest' : List UInt8} (hline : 0x0A ∉ line) (hline' : 0x0A ∉ line')
    (h : line ++ 0x0A :: rest = line' ++ 0x0A :: rest') : line = line' ∧ rest = rest' := by
  have htake := congrArg takeLine h
  rw [takeLine_append hline, takeLine_append hline'] at htake
  obtain ⟨hfirst, hsecond⟩ := Prod.mk.inj htake
  exact ⟨List.append_cancel_right hfirst, Option.some.inj hsecond⟩

/-- Two streams that are equal begin with the same frame. -/
theorem frame_append_inj {v w : Json} {rest rest' : List UInt8}
    (h : frame v ++ rest = frame w ++ rest') : frame v = frame w ∧ rest = rest' := by
  rw [frame_eq, frame_eq, List.append_assoc, List.append_assoc] at h
  obtain ⟨hhead, hback⟩ := line_inj (newline_not_mem_head _) (newline_not_mem_head _) h
  have hbody : body v ++ rest = body w ++ rest' := (List.cons.inj (List.cons.inj hback).2).2
  obtain ⟨hv, hrest⟩ := List.append_inj hbody (head_injective hhead)
  exact ⟨by rw [frame_eq, frame_eq, hv], hrest⟩

/-- An unfinished first line has no octet of a frame behind it. -/
theorem not_in_head {n m k : Nat} (hpos : 0 < k) {rest back : List UInt8} :
    (head n).take k ++ 0x43 :: rest ≠ head m ++ 0x0A :: back := by
  intro h
  obtain ⟨tail, htail, hcapital⟩ := exists_head m
  have hfront : (head n).take k ++ [0x43] <+: head m ++ 0x0A :: back := by
    rw [← h]
    exact ⟨rest, by simp⟩
  have hfeed : 0x0A ∉ (head n).take k ++ [0x43] := by
    rw [List.mem_append, not_or]
    exact ⟨fun hmem => newline_not_mem_head n (List.mem_of_mem_take hmem), by decide⟩
  have hline := prefix_of_not_mem hfront hfeed
  obtain ⟨k, rfl⟩ : ∃ j, k = j + 1 := ⟨k - 1, by omega⟩
  obtain ⟨tail', htail', _⟩ := exists_head n
  rw [htail', htail, List.take_succ_cons, List.cons_append, List.cons_prefix_cons] at hline
  exact hcapital (hline.2.subset (by simp))

/-- An unfinished body has no octet of a frame behind it. -/
theorem not_in_body {v w : Json} {i : Nat} (hi : i < (body w).length)
    (hlength : (body v).length = (body w).length) {rest back : List UInt8}
    (hrest : HeadFirst rest) : (body v).take i ++ rest ≠ body w ++ back := by
  intro h
  have hfront : (body v).take i <+: body w := by
    apply List.prefix_of_prefix_length_le (List.prefix_append _ rest)
    · rw [h]
      exact List.prefix_append _ back
    · rw [List.length_take]
      omega
  obtain ⟨line, hline⟩ := hfront
  have hne : line ≠ [] := by
    rintro rfl
    have hshort := congrArg List.length hline
    rw [List.append_nil, List.length_take] at hshort
    omega
  have hsplit : rest = line ++ back := by
    rw [← hline, List.append_assoc] at h
    exact List.append_cancel_left h
  have hfeed : 0x0A ∉ line := fun hmem =>
    newline_not_mem_body w (hline ▸ List.mem_append_right _ hmem)
  obtain ⟨c, more, hc⟩ := List.exists_cons_of_ne_nil hne
  have hcapital : c = 0x43 := hrest.starts c (more ++ back) (by rw [hsplit, hc, List.cons_append])
  have hmem : 0x43 ∈ body w := by
    rw [← hline, hc, hcapital]
    simp
  obtain ⟨front, b, hb, hends⟩ := ends_of_capital hmem
  -- the last octet of the body is the last octet of a part of a first line
  have hlast : b = line.getLast hne := by
    have hgetLast := congrArg List.getLast? (hline.trans hends)
    rw [List.getLast?_append_of_ne_nil _ hne, List.getLast?_concat,
      List.getLast?_eq_some_getLast hne] at hgetLast
    exact (Option.some.inj hgetLast).symm
  have hopen := hrest.unclosed line (hsplit ▸ List.prefix_append line back) hfeed
  exact hopen b (hlast ▸ List.getLast_mem hne) hb

/-- **No unfinished frame is hidden in a stream of frames**, whatever frames come behind it. -/
theorem unfinished_append_ne {v w : Json} {k : Nat} (hpos : 0 < k) (hk : k < (frame v).length)
    {rest back : List UInt8} (hrest : HeadFirst rest) :
    (frame v).take k ++ rest ≠ frame w ++ back := by
  intro h
  have hnv := newline_not_mem_head (body v).length
  by_cases hhead : k ≤ (head (body v).length).length
  · -- the frame ends in its first line
    have htake : (frame v).take k = (head (body v).length).take k := by
      rw [frame_eq, List.take_append_of_le_length hhead]
    rw [htake] at h
    rw [frame_eq w, List.append_assoc] at h
    cases hr : rest with
    | nil =>
      rw [hr, List.append_nil] at h
      have hmem : 0x0A ∈ (head (body v).length).take k := h ▸ by simp
      exact hnv (List.mem_of_mem_take hmem)
    | cons b rest' =>
      rw [hr, hrest.starts b rest' hr] at h
      exact not_in_head hpos h
  · -- the first line is out, so both frames are equally long
    obtain ⟨j, rfl⟩ : ∃ j, k = (head (body v).length).length + (j + 1) :=
      ⟨k - (head (body v).length).length - 1, by omega⟩
    rw [frame_eq v, frame_eq w, List.take_length_add_append, List.take_succ_cons, List.append_assoc,
      List.append_assoc] at h
    obtain ⟨hheads, hback⟩ := line_inj hnv (newline_not_mem_head _) h
    have hlength := head_injective hheads
    rw [length_frame] at hk
    obtain _ | _ | i := j
    · exact absurd (hrest.starts 0x0D _ hback) (by decide)
    · exact absurd (hrest.starts 0x0A _ (List.cons.inj hback).2) (by decide)
    · have hbody : (body v).take i ++ rest = body w ++ back :=
        (List.cons.inj (List.cons.inj hback).2).2
      exact not_in_body (by omega) hlength hrest hbody

end SymbolQuery.Rpc
