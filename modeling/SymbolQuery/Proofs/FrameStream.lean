/-
Messages on a stream that may be cut anywhere.

`Passes` says of some octets how a reader that stands before them goes on: if they are
all there it comes to stand behind them, and if they are cut it finds no message,
whatever is left of them. It composes, so the lines of a header and the text after it
are dealt with one by one, and a frame with its message follows. A stream of frames is
an induction on the frames: those that are whole give their messages, and the first that
is cut, or the end of the stream, gives a fault.

That reading ends with a fault holds of any octets, for no message is empty.
-/
import SymbolQuery.Proofs.HeaderLines
import SymbolQuery.Proofs.MessageForm

set_option autoImplicit false

namespace SymbolQuery.Rpc

/-! ## Every stream ends -/

theorem length_of_scanBody {length : Nat} {octets rest : List UInt8} {m : Message}
    (h : scanBody length octets = .message m rest) : rest.length ≤ octets.length := by
  unfold scanBody at h
  split at h
  · cases h
  split at h
  · cases h
  split at h
  · cases h
  split at h
  · cases h
  · cases h
    rw [List.length_drop]
    omega

theorem length_of_scanHeader {length : Option Nat} {octets rest : List UInt8} {m : Message}
    (h : scanHeader length octets = .message m rest) : rest.length < octets.length := by
  cases hline : takeLine octets with
  | mk line after =>
    cases after with
    | none =>
      obtain ⟨fault, hcut⟩ := scanHeader_of_cut length hline
      rw [hcut] at h
      cases h
    | some after =>
      have hshort := takeLine_length hline
      rw [scanHeader_of_line length hline] at h
      split at h
      · cases h
      · split at h
        · cases h
        · have hbody := length_of_scanBody h
          omega
      · have hmore := length_of_scanHeader h
        omega
      · have hmore := length_of_scanHeader h
        omega
termination_by octets.length

/-- A message takes at least one octet. -/
theorem length_of_readMessage {octets rest : List UInt8} {m : Message}
    (h : readMessage octets = .ok (m, rest)) : rest.length < octets.length := by
  unfold readMessage at h
  split at h
  · next hscan =>
    cases h
    exact length_of_scanHeader hscan
  · cases h
  · cases h

theorem readUpTo_ends {fuel : Nat} {octets : List UInt8} (h : octets.length < fuel) :
    ∃ fault, (readUpTo fuel octets).2 = some fault := by
  induction fuel generalizing octets with
  | zero => omega
  | succ fuel ih =>
    unfold readUpTo
    split
    · exact ⟨_, rfl⟩
    · next hread =>
      have hshort := length_of_readMessage hread
      exact ih (by omega)

/-- **Reading a stream ends with a fault.** -/
theorem readStream_ends (octets : List UInt8) : ∃ fault, (readStream octets).2 = some fault :=
  readUpTo_ends (Nat.lt_succ_self octets.length)

/-! ## Octets that are passed -/

/-- A reader that stands before some octets stands behind them if they are all there, and finds no
message if they are cut. -/
structure Passes (reader : List UInt8 → Scan) (octets : List UInt8) (next : List UInt8 → Scan) :
    Prop where
  cut : ∀ rest k, k < octets.length →
    ∃ fault, reader ((octets ++ rest).take k) = .incomplete fault
  whole : ∀ rest k, octets.length ≤ k →
    reader ((octets ++ rest).take k) = next (rest.take (k - octets.length))

variable {reader next last : List UInt8 → Scan}

theorem Passes.nil (reader : List UInt8 → Scan) : Passes reader [] reader where
  cut _ k hk := absurd hk (Nat.not_lt_zero k)
  whole _ _ _ := rfl

/-- Octets are passed one after the other. -/
theorem Passes.append {octets more : List UInt8} (h : Passes reader octets next)
    (hmore : Passes next more last) : Passes reader (octets ++ more) last where
  cut := by
    intro rest k hk
    rw [List.length_append] at hk
    rw [List.append_assoc]
    by_cases hshort : k < octets.length
    · exact h.cut (more ++ rest) k hshort
    · rw [h.whole (more ++ rest) k (by omega)]
      exact hmore.cut rest _ (by omega)
  whole := by
    intro rest k hk
    rw [List.length_append] at hk ⊢
    rw [List.append_assoc, h.whole (more ++ rest) k (by omega), hmore.whole rest _ (by omega),
      Nat.sub_sub]

/-! ## Frames -/

/-- What stands before the line feed decides whether a line is whole. -/
theorem passes_line {line : String} (hline : '\n' ∉ line.toList) {length : Option Nat}
    (hnext : ∀ octets rest, takeLine octets = (lineOctets line, some rest) →
      scanHeader length octets = next rest) :
    Passes (scanHeader length) (lineOctets line) next := by
  have hfeed := Text.newline_not_mem_encodeChars hline
  have hlength := length_lineOctets line
  constructor
  · intro rest k hk
    have htake : (lineOctets line ++ rest).take k = (Text.encodeChars line.toList).take k := by
      rw [lineOctets_eq, List.append_assoc, List.take_append_of_le_length (by omega)]
    rw [htake]
    exact scanHeader_of_cut length
      (takeLine_of_not_mem fun hmem => hfeed (List.mem_of_mem_take hmem))
  · intro rest k hk
    apply hnext
    rw [List.take_append, List.take_of_length_le hk, lineOctets_eq, List.append_assoc,
      List.singleton_append]
    exact takeLine_append hfeed _

theorem passes_other {line : String} (h : IsOther line) (length : Option Nat) :
    Passes (scanHeader length) (lineOctets line) (scanHeader length) := by
  apply passes_line h.oneLine
  intro octets rest hline
  rw [scanHeader_of_line length hline, readHeaderLine_other h]

theorem passes_others {lines : List String} (h : ∀ line ∈ lines, IsOther line)
    (length : Option Nat) :
    Passes (scanHeader length) (lines.flatMap lineOctets) (scanHeader length) := by
  induction lines with
  | nil => exact Passes.nil _
  | cons line lines ih =>
    rw [List.flatMap_cons]
    exact (passes_other (h line List.mem_cons_self) length).append
      (ih fun l hl => h l (List.mem_cons_of_mem line hl))

theorem passes_length {n : Nat} (h : n ≤ Text.max64) (length : Option Nat) :
    Passes (scanHeader length) (lineOctets (lengthLine n)) (scanHeader (some n)) := by
  apply passes_line (newline_not_mem_lengthLine n)
  intro octets rest hline
  rw [scanHeader_of_line length hline, readHeaderLine_length h]

theorem passes_end (n : Nat) :
    Passes (scanHeader (some n)) (lineOctets endLine) (scanBody n) := by
  apply passes_line (by decide)
  intro octets rest hline
  rw [scanHeader_of_line (some n) hline, readHeaderLine_end]

/-- The text of a message is passed with the message. -/
theorem passes_text {text : String} {m : Message} (hfits : text.utf8ByteSize ≤ maxBuffer)
    (hparse : Message.parseChars text.toList = .ok m) :
    Passes (scanBody text.utf8ByteSize) (Text.encode text) (.message m) := by
  have hlength := Text.length_encode text
  have hbuffer : ¬ maxBuffer < text.utf8ByteSize := Nat.not_lt.mpr hfits
  constructor
  · intro rest k hk
    have hshort : ((Text.encode text ++ rest).take k).length < text.utf8ByteSize := by
      rw [List.length_take]
      omega
    rw [scanBody, if_neg hbuffer, if_pos hshort]
    exact ⟨_, rfl⟩
  · intro rest k hk
    have htake : (Text.encode text ++ rest).take k
        = Text.encode text ++ rest.take (k - (Text.encode text).length) := by
      rw [List.take_append, List.take_of_length_le hk]
    rw [htake, scanBody, if_neg hbuffer, if_neg (by rw [List.length_append]; omega), ← hlength,
      List.take_left, List.drop_left, Text.encode_eq_encodeChars, Text.decode_encodeChars]
    dsimp only
    rw [hparse]

/-- An announced length that fits no buffer breaks the reading off. -/
theorem readStream_unbufferable {n : Nat} (h : maxBuffer < n) (hmax : n ≤ Text.max64)
    (rest : List UInt8) :
    readStream (lineOctets (lengthLine n) ++ lineOctets endLine ++ rest)
      = ([], some .unbufferable) := by
  have hpasses := (passes_length hmax none).append (passes_end n)
  have hscan : scan (lineOctets (lengthLine n) ++ lineOctets endLine ++ rest)
      = .fault .unbufferable := by
    have hwhole := hpasses.whole rest _ (Nat.le_add_right _ rest.length)
    rw [← List.length_append, List.take_length] at hwhole
    rw [scan, hwhole, scanBody, if_pos h]
  rw [readStream, readUpTo, readMessage, hscan]

/-- A message as it is sent, with other header lines before and after the one that gives its
length. -/
structure Envelope where
  message : Message
  before : List String := []
  after : List String := []

namespace Envelope

/-- The text of the message. -/
def text (e : Envelope) : String := e.message.toJson.compact

/-- The octets that are sent. -/
def octets (e : Envelope) : List UInt8 :=
  e.before.flatMap lineOctets ++ lineOctets (lengthLine e.text.utf8ByteSize)
    ++ e.after.flatMap lineOctets ++ lineOctets endLine ++ Text.encode e.text

/-- Without other header lines the octets are those of the frame of the message. -/
theorem octets_of_message (m : Message) : octets { message := m } = m.frame := by
  have hframe : frameText m.toJson.compact
      = lengthLine m.toJson.compact.utf8ByteSize ++ "\n" ++ (endLine ++ "\n")
        ++ m.toJson.compact := by
    have hbreaks : "\r\n\r\n" = "\r" ++ "\n" ++ ("\r" ++ "\n") := by decide
    unfold frameText lengthLine endLine
    rw [hbreaks]
    simp only [String.append_assoc]
  rw [Message.frame, frame, hframe, Text.encode_append, Text.encode_append, octets, text,
    List.flatMap_nil, List.nil_append, List.append_nil]
  rfl

/-- What is asked of a message and of the other header lines. The text of the message reads back as
its object, and is no longer than a text can be. -/
structure Valid (e : Envelope) : Prop where
  built : e.message.Built
  reads : Json.parseChars e.text.toList = .ok e.message.toJson.canonical
  fits : e.text.utf8ByteSize ≤ maxBuffer
  others : ∀ line ∈ e.before ++ e.after, IsOther line

/-- A frame is passed with its message. -/
theorem Valid.passes {e : Envelope} (h : e.Valid) :
    Passes scan e.octets (.message e.message.reread) := by
  have hbefore : ∀ line ∈ e.before, IsOther line :=
    fun line hl => h.others line (List.mem_append_left _ hl)
  have hafter : ∀ line ∈ e.after, IsOther line :=
    fun line hl => h.others line (List.mem_append_right _ hl)
  have hlimit : e.text.utf8ByteSize ≤ Text.max64 := Nat.le_trans h.fits (by decide)
  have hparse : Message.parseChars e.text.toList = .ok e.message.reread := by
    rw [Message.parseChars, h.reads]
    exact Message.ofJson_canonical h.built
  exact ((((passes_others hbefore none).append (passes_length hlimit none)).append
    (passes_others hafter _)).append (passes_end _)).append (passes_text h.fits hparse)

theorem length_pos (e : Envelope) : 0 < e.octets.length := by
  rw [octets, List.length_append, List.length_append, length_lineOctets endLine]
  omega

/-- The frames that lie wholly within the first `k` octets. -/
def within (k : Nat) : List Envelope → List Envelope
  | [] => []
  | e :: es => if e.octets.length ≤ k then e :: within (k - e.octets.length) es else []

end Envelope

/-! ## Streams of frames -/

theorem readMessage_cut {octets : List UInt8} (rest : List UInt8) {k : Nat} {m : Message}
    (h : Passes scan octets (.message m)) (hk : k < octets.length) :
    ∃ fault, readMessage ((octets ++ rest).take k) = .error fault := by
  obtain ⟨fault, hscan⟩ := h.cut rest k hk
  exact ⟨fault, by rw [readMessage, hscan]⟩

theorem readMessage_whole {octets : List UInt8} (rest : List UInt8) {k : Nat} {m : Message}
    (h : Passes scan octets (.message m)) (hk : octets.length ≤ k) :
    readMessage ((octets ++ rest).take k) = .ok (m, rest.take (k - octets.length)) := by
  rw [readMessage, h.whole rest k hk]

/-- Reading a cut stream with fuel for each of its octets. -/
theorem readUpTo_take {es : List Envelope} (h : ∀ e ∈ es, e.Valid) {fuel k : Nat}
    (hfuel : ((es.flatMap Envelope.octets).take k).length < fuel) :
    ∃ fault, readUpTo fuel ((es.flatMap Envelope.octets).take k)
      = ((Envelope.within k es).map (·.message.reread), some fault) := by
  induction es generalizing fuel k with
  | nil =>
    cases fuel with
    | zero => omega
    | succ fuel =>
      obtain ⟨fault, hend⟩ := scanHeader_of_cut none (rfl : takeLine [] = ([], none))
      refine ⟨fault, ?_⟩
      rw [List.flatMap_nil, List.take_nil, readUpTo, readMessage, scan, hend]
      rfl
  | cons e es ih =>
    have hpasses := (h e List.mem_cons_self).passes
    have hpos := e.length_pos
    cases fuel with
    | zero => omega
    | succ fuel =>
      rw [List.flatMap_cons] at hfuel ⊢
      by_cases hk : e.octets.length ≤ k
      · have hread := readMessage_whole (es.flatMap Envelope.octets) hpasses hk
        have hshort := length_of_readMessage hread
        have hfuel' : ((es.flatMap Envelope.octets).take (k - e.octets.length)).length < fuel := by
          omega
        obtain ⟨fault, hmore⟩ := ih (fun e' he => h e' (List.mem_cons_of_mem e he)) hfuel'
        refine ⟨fault, ?_⟩
        rw [readUpTo, hread]
        dsimp only
        rw [hmore, Envelope.within, if_pos hk, List.map_cons]
      · obtain ⟨fault, hread⟩ :=
          readMessage_cut (es.flatMap Envelope.octets) hpasses (Nat.lt_of_not_le hk)
        refine ⟨fault, ?_⟩
        rw [readUpTo, hread, Envelope.within, if_neg hk]
        rfl

/-- **A stream of frames that is cut anywhere** gives the messages of the frames that lie wholly
before the cut, in their order, each as it was built except that a value of null is no value; and
then a fault. A frame that is cut gives no message. -/
theorem readStream_take_envelopes {es : List Envelope} (h : ∀ e ∈ es, e.Valid) (k : Nat) :
    ∃ fault, readStream ((es.flatMap Envelope.octets).take k)
      = ((Envelope.within k es).map (·.message.reread), some fault) :=
  readUpTo_take h (Nat.lt_succ_self _)

/-- The octets of a text that is sent as a message, however it is written. -/
def textOctets (text : String) : List UInt8 :=
  lineOctets (lengthLine text.utf8ByteSize) ++ lineOctets endLine ++ Text.encode text

/-- A text that can be read as a message. -/
def ReadsAs (text : String) (m : Message) : Prop :=
  text.utf8ByteSize ≤ maxBuffer ∧ Message.parseChars text.toList = .ok m

theorem ReadsAs.passes {text : String} {m : Message} (h : ReadsAs text m) :
    Passes scan (textOctets text) (.message m) :=
  ((passes_length (Nat.le_trans h.1 (by decide)) none).append (passes_end _)).append
    (passes_text h.1 h.2)

/-- **A stream of texts** is read as the messages that they are, and then it ends. -/
theorem readStream_texts {texts : List String} {ms : List Message}
    (h : List.Forall₂ ReadsAs texts ms) :
    ∃ fault, readStream (texts.flatMap textOctets) = (ms, some fault) := by
  unfold readStream
  generalize hfuel : (texts.flatMap textOctets).length + 1 = fuel
  replace hfuel : (texts.flatMap textOctets).length < fuel := by omega
  induction h generalizing fuel with
  | nil =>
    cases fuel with
    | zero => omega
    | succ fuel =>
      obtain ⟨fault, hend⟩ := scanHeader_of_cut none (rfl : takeLine [] = ([], none))
      refine ⟨fault, ?_⟩
      rw [List.flatMap_nil, readUpTo, readMessage, scan, hend]
  | @cons text m texts ms htext _ ih =>
    cases fuel with
    | zero => omega
    | succ fuel =>
      rw [List.flatMap_cons] at hfuel ⊢
      have hread : readMessage (textOctets text ++ texts.flatMap textOctets)
          = .ok (m, texts.flatMap textOctets) := by
        have hwhole := readMessage_whole (texts.flatMap textOctets) htext.passes
          (Nat.le_add_right _ (texts.flatMap textOctets).length)
        rwa [← List.length_append, List.take_length, List.length_append, Nat.add_sub_cancel_left,
          List.take_length] at hwhole
      have hshort := length_of_readMessage hread
      obtain ⟨fault, hmore⟩ := ih fuel (by omega)
      refine ⟨fault, ?_⟩
      rw [readUpTo, hread]
      dsimp only
      rw [hmore]

/-- A notification without parameters and a request whose method is not plain text, each with other
header lines. -/
def greetings : List Envelope :=
  [{ message := .notification { method := "initialized", params := some .null }
     before := ["Content-Type: application/vscode-jsonrpc; charset=utf-8\r"] },
   { message := .request { id := .text "a", method := "é", params := some (.arr [.ofNat 1]) }
     after := ["X-Näme: Content-Length: 3"] }]

/-- The cut is between the two octets of the `é`. -/
theorem readStream_take_greetings :
    (∀ e ∈ greetings, e.Valid) ∧
      ∃ fault, readStream ((greetings.flatMap Envelope.octets).take 219)
        = ([.notification { method := "initialized" }], some fault) := by
  have hvalid : ∀ e ∈ greetings, e.Valid := by
    intro e he
    simp only [greetings, List.mem_cons, List.not_mem_nil, or_false] at he
    obtain rfl | rfl := he
    · exact {
        built := .notification _ (by simp; decide)
        reads := by decide +kernel
        fits := by decide +kernel
        others := by decide +kernel }
    · exact {
        built := .request (show Id.Fits (.text "a") from trivial) _ (by simp; decide)
        reads := by decide +kernel
        fits := by decide +kernel
        others := by decide +kernel }
  obtain ⟨fault, hread⟩ := readStream_take_envelopes hvalid 219
  refine ⟨hvalid, fault, hread.trans ?_⟩
  unfold greetings Envelope.within
  rw [if_pos (by decide +kernel), Envelope.within, if_neg (by decide +kernel)]
  rfl

end SymbolQuery.Rpc
