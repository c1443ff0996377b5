import EndpointTrace.Proofs.Assistant.Chunks
import EndpointTrace.Proofs.Json.Reading
import EndpointTrace.Proofs.Text.Trimming

/-!
# Sent replies

How a service sends a reply: every piece in an event of its own, written as JSON on a data
line, and between the pieces whatever says nothing, such as blank lines, comments, other
fields and events whose delta has no content.  At the end stands nothing, or a line without
line end, or a line that ends the reply and then anything at all.

Main statement: however the bytes are cut on the way, the pieces are read back, joined.
-/

namespace EndpointTrace

open JsonText (Quoted)

namespace SentReply

structure Blanks where
  chars : List Char
  blank : chars.all Text.isBlank = true
  oneLine : '\n' ∉ chars

structure Event where
  text : JsonText
  fields : List (Quoted × JsonText.Value)
  value_eq : text.value = .object fields
  oneLine : '\n' ∉ text.chars

/-- The names under which an event carries a piece of a reply. -/
structure PieceNames where
  choices : Quoted
  delta : Quoted
  content : Quoted
  choices_eq : choices.value = "choices"
  delta_eq : delta.value = "delta"
  content_eq : content.value = "content"

/-- One choice, with a delta that has a content and nothing else. -/
def PieceNames.fields (names : PieceNames) (piece : Quoted) : List (Quoted × JsonText.Value) :=
  [(names.choices, .list [.object [(names.delta, .object [(names.content, .text piece)])]])]

/-- An event that reports no error and whose delta, if it has one, has no content. -/
structure Wordless (event : JsonValue) : Prop where
  noError : event.field? "error" = none
  noContent : ∀ {choices choice delta : JsonValue}, event.field? "choices" = some choices →
    choices.item? 0 = some choice → choice.field? "delta" = some delta →
      delta.field? "content" = none ∨ delta.field? "content" = some .null

inductive FieldName where
  | event
  | id

def FieldName.chars : FieldName → List Char
  | event => ['e', 'v', 'e', 'n', 't']
  | id => ['i', 'd']

inductive Line where
  | piece (gap : Blanks) (event : Event) (names : PieceNames) (piece : Quoted)
      (carries : event.fields = names.fields piece)
  | wordless (gap : Blanks) (event : Event)
      (shallow : event.text.value.depth ≤ JsonReader.depthLimit)
      (quiet : Wordless event.text.value.meaning)
  | blank (blanks : Blanks)
  | comment (text : List Char) (oneLine : '\n' ∉ text)
  | field (name : FieldName) (text : List Char) (oneLine : '\n' ∉ text)

def dataName : List Char := ['d', 'a', 't', 'a', ':']

namespace Line

def chars : Line → List Char
  | piece gap event _ _ _ => dataName ++ (gap.chars ++ event.text.chars)
  | wordless gap event _ _ => dataName ++ (gap.chars ++ event.text.chars)
  | blank blanks => blanks.chars
  | comment text _ => ':' :: text
  | field name text _ => name.chars ++ ':' :: text

def pieces : Line → List String
  | piece _ _ _ written _ => [written.value]
  | _ => []

end Line

inductive LineEnd where
  | lineFeed
  | carriageReturn

def LineEnd.before : LineEnd → List Char
  | lineFeed => []
  | carriageReturn => ['\r']

def doneMark : List Char := ['[', 'D', 'O', 'N', 'E', ']']

inductive Closing where
  | nothing
  | unended (line : Line)
  | done (gap : Blanks) (ending : LineEnd) (after : List UInt8)

def ended (chars : List Char) (ending : LineEnd) : List UInt8 :=
  Text.Utf8.encode (chars ++ ending.before) ++ [EventStream.lineFeed]

namespace Closing

def bytes : Closing → List UInt8
  | nothing => []
  | unended line => Text.Utf8.encode line.chars
  | done gap ending after => ended (dataName ++ (gap.chars ++ doneMark)) ending ++ after

def pieces : Closing → List String
  | unended line => line.pieces
  | _ => []

end Closing

end SentReply

structure SentReply where
  lines : List (SentReply.Line × SentReply.LineEnd)
  closing : SentReply.Closing

namespace SentReply

def bytes (sent : SentReply) : List UInt8 :=
  (sent.lines.flatMap fun line => ended line.1.chars line.2) ++ sent.closing.bytes

def pieces (sent : SentReply) : List String :=
  (sent.lines.flatMap fun line => line.1.pieces) ++ sent.closing.pieces

/-!
## Objects between blanks
-/

theorem isBlank_of_gap (gap : JsonText.Gap) : gap.chars.all Text.isBlank = true := by
  have hblank : ∀ {c : Char}, JsonToken.isBlank c = true → Text.isBlank c = true := by
    intro c hc
    simp only [JsonToken.isBlank, Bool.or_eq_true, decide_eq_true_eq] at hc
    rcases hc with ((rfl | rfl) | rfl) | rfl <;> decide
  apply List.all_eq_true.mpr
  intro c hc
  exact hblank (List.all_eq_true.mp gap.blank c hc)

/-!
## What a line says
-/

theorem ofChars_data {gap data after : List Char} {last : Char}
    (hgap : gap.all Text.isBlank = true) (hafter : after.all Text.isBlank = true)
    (hhead : ∀ c ∈ (data ++ [last]).head?, Text.isBlank c = false)
    (hlast : Text.isBlank last = false) :
    EventLine.ofChars (dataName ++ (gap ++ (data ++ [last]) ++ after)) =
      EventLine.ofData (data ++ [last]) := by
  have hline : dataName ++ (gap ++ (data ++ [last]) ++ after) =
      [] ++ ((dataName ++ (gap ++ data)) ++ [last]) ++ after := by
    simp only [List.nil_append, List.append_assoc]
  have htrim : Text.trim (dataName ++ (gap ++ (data ++ [last]) ++ after)) =
      dataName ++ (gap ++ (data ++ [last]) ++ []) := by
    rw [hline, Text.trim_framed rfl hafter (Text.head_of_cons rfl _) hlast]
    simp only [List.append_nil, List.append_assoc]
  rw [EventLine.ofChars, htrim]
  show EventLine.ofData (Text.trim (gap ++ (data ++ [last]) ++ [])) = _
  rw [Text.trim_framed hgap rfl hhead hlast]

theorem ofChars_event (gap : Blanks) (event : Event) {after : List Char}
    (hafter : after.all Text.isBlank = true)
    (hshallow : event.text.value.depth ≤ JsonReader.depthLimit) :
    EventLine.ofChars (dataName ++ (gap.chars ++ event.text.chars) ++ after) =
      EventLine.ofEvent event.text.value.meaning := by
  rcases JsonText.bare_object event.value_eq with ⟨inner, hobject⟩
  have hline : dataName ++ (gap.chars ++ event.text.chars) ++ after =
      dataName ++ ((gap.chars ++ event.text.layout.before.chars) ++
        (('{' :: inner) ++ ['}']) ++ (event.text.gap.chars ++ after)) := by
    rw [event.text.chars_bare, hobject]
    simp only [List.append_assoc]
  have hparse : JsonValue.parse? (('{' :: inner) ++ ['}']) =
      some event.text.value.meaning := by
    rw [← hobject]
    exact event.text.bare.parse?_chars hshallow
  rw [hline, ofChars_data _ _ (Text.head_of_cons rfl _) rfl]
  · rw [EventLine.ofData, if_neg, hparse]
    intro heq
    cases heq
  · rw [List.all_append, gap.blank, isBlank_of_gap event.text.layout.before]
    rfl
  · rw [List.all_append, isBlank_of_gap event.text.gap, hafter]
    rfl

theorem ofEvent_piece (piece : String) :
    EventLine.ofEvent (.ofFields [("choices",
        .list [.ofFields [("delta", .ofFields [("content", .text piece)])]])]) =
      if piece.isEmpty then .skip else .content piece := rfl

theorem ofEvent_wordless {event : JsonValue} (hquiet : Wordless event) :
    EventLine.ofEvent event = .skip := by
  have hcontent : EventLine.content? event = none := by
    by_contra hsome
    rcases Option.ne_none_iff_exists'.mp hsome with ⟨text, htext⟩
    simp only [EventLine.content?, Option.bind_eq_bind, Option.bind_eq_some_iff] at htext
    rcases htext with ⟨choices, hchoices, choice, hchoice, delta, hdelta, content, hfound,
      hread⟩
    rcases hquiet.noContent hchoices hchoice hdelta with hnone | hnull
    · cases hnone.symm.trans hfound
    · cases hnull.symm.trans hfound
      cases hread
  rw [EventLine.ofEvent, hquiet.noError, hcontent]

theorem ofChars_other {first : Char} (hblank : Text.isBlank first = false)
    (hother : first ≠ 'd') (rest : List Char) :
    EventLine.ofChars (first :: rest) = .skip := by
  rw [EventLine.ofChars, Text.trim_cons hblank]
  split
  · rename_i heq
    exact absurd (List.cons.inj heq).1 hother
  · rfl

theorem ofChars_field (name : FieldName) (rest : List Char) :
    EventLine.ofChars (name.chars ++ rest) = .skip := by
  cases name with
  | event =>
      exact ofChars_other (by decide) (by decide) _
  | id =>
      exact ofChars_other (by decide) (by decide) _

theorem meaning_piece (names : PieceNames) (piece : Quoted) :
    (JsonText.Value.object (names.fields piece)).meaning =
      .ofFields [("choices",
        .list [.ofFields [("delta", .ofFields [("content", .text piece.value)])]])] := by
  simp only [PieceNames.fields, JsonText.Value.meaning, JsonText.Value.fieldMeanings,
    JsonText.Value.meanings, names.choices_eq, names.delta_eq, names.content_eq]

theorem depth_piece (names : PieceNames) (piece : Quoted) :
    (JsonText.Value.object (names.fields piece)).depth = 4 := by
  simp only [PieceNames.fields, JsonText.Value.depth, JsonText.Value.depthFields,
    JsonText.Value.depthItems, Nat.max_zero]

/-- An empty piece is no item. -/
def itemsFor (pieces : List String) : List (Except Failure String) :=
  (pieces.filter fun piece => !piece.isEmpty).map .ok

theorem join_nonempty (pieces : List String) :
    String.join (pieces.filter fun piece => !piece.isEmpty) = String.join pieces := by
  induction pieces with
  | nil =>
      rfl
  | cons piece rest ih =>
      by_cases hempty : piece.isEmpty = true
      · rw [List.filter_cons_of_neg (by simp [hempty]), ih, String.join_cons,
          String.isEmpty_iff.mp hempty, String.empty_append]
      · rw [List.filter_cons_of_pos (by simp [hempty]), String.join_cons, ih,
          String.join_cons]

theorem itemsOf_line (line : Line) {after : List Char}
    (hafter : after.all Text.isBlank = true) (rest : List (List Char)) :
    EventStream.itemsOf none ((line.chars ++ after) :: rest) =
      itemsFor line.pieces ++ EventStream.itemsOf none rest := by
  rw [EventStream.itemsOf]
  cases line with
  | piece gap event names written carries =>
      have hshallow : event.text.value.depth ≤ JsonReader.depthLimit := by
        rw [event.value_eq, carries, depth_piece]
        decide
      rw [Line.chars, ofChars_event gap event hafter hshallow, event.value_eq, carries,
        meaning_piece, ofEvent_piece, Line.pieces, itemsFor]
      by_cases hempty : written.value.isEmpty = true
      · rw [if_pos hempty, List.filter_cons_of_neg (by simp [hempty])]
        rfl
      · rw [if_neg hempty, List.filter_cons_of_pos (by simp [hempty])]
        rfl
  | wordless gap event shallow quiet =>
      rw [Line.chars, ofChars_event gap event hafter shallow, ofEvent_wordless quiet]
      rfl
  | blank blanks =>
      have hblank : (blanks.chars ++ after).all Text.isBlank = true := by
        rw [List.all_append, blanks.blank, hafter]
        rfl
      rw [Line.chars, EventLine.ofChars, Text.trim_blank hblank]
      rfl
  | comment text oneLine =>
      rw [Line.chars, List.cons_append, ofChars_other (by decide) (by decide)]
      rfl
  | field name text oneLine =>
      rw [Line.chars, List.append_assoc, ofChars_field]
      rfl

theorem ofChars_done (gap : Blanks) {after : List Char}
    (hafter : after.all Text.isBlank = true) :
    EventLine.ofChars (dataName ++ (gap.chars ++ doneMark) ++ after) = .done := by
  have hline : dataName ++ (gap.chars ++ doneMark) ++ after =
      dataName ++ (gap.chars ++ (['[', 'D', 'O', 'N', 'E'] ++ [']']) ++ after) := by
    simp only [doneMark, List.append_assoc, List.cons_append, List.nil_append]
  rw [hline, ofChars_data gap.blank hafter (Text.head_of_cons rfl _) rfl]
  rfl

/-!
## Lines in the bytes
-/

theorem LineEnd.blank_before (ending : LineEnd) :
    ending.before.all Text.isBlank = true := by
  cases ending <;> rfl

theorem LineEnd.oneLine (ending : LineEnd) : '\n' ∉ ending.before := by
  cases ending <;> decide

theorem lineFeed_not_mem_data {gap data : List Char} (hgap : '\n' ∉ gap)
    (hdata : '\n' ∉ data) : '\n' ∉ dataName ++ (gap ++ data) := by
  simp only [List.mem_append, not_or]
  exact ⟨by decide, hgap, hdata⟩

theorem Line.oneLine (line : Line) : '\n' ∉ line.chars := by
  cases line with
  | piece gap event names written carries =>
      exact lineFeed_not_mem_data gap.oneLine event.oneLine
  | wordless gap event shallow quiet =>
      exact lineFeed_not_mem_data gap.oneLine event.oneLine
  | blank blanks =>
      exact blanks.oneLine
  | comment text oneLine =>
      simp only [chars, List.mem_cons, not_or]
      exact ⟨by decide, oneLine⟩
  | field name text oneLine =>
      simp only [chars, List.mem_append, List.mem_cons, not_or]
      exact ⟨by cases name <;> decide, by decide, oneLine⟩

theorem lines_ended {chars : List Char} (hchars : '\n' ∉ chars) (ending : LineEnd)
    (more : List UInt8) :
    (EventStream.Delivery.mk (ended chars ending ++ more) none).lines =
      Text.Utf8.encode (chars ++ ending.before) ::
        (EventStream.Delivery.mk more none).lines := by
  have honeLine : EventStream.lineFeed ∉ Text.Utf8.encode (chars ++ ending.before) := by
    rw [EventStream.lineFeed, Text.Utf8.lineFeed_mem_encode, List.mem_append, not_or]
    exact ⟨hchars, ending.oneLine⟩
  have hparts : (ended chars ending ++ more).splitOn EventStream.lineFeed =
      [Text.Utf8.encode (chars ++ ending.before)] ++
        more.splitOn EventStream.lineFeed := by
    rw [ended, List.append_assoc, List.singleton_append,
      List.splitOn_append_cons_self_of_not_mem honeLine]
    rfl
  exact EventStream.lines_of_parts hparts

def itemsIn (bytes : List UInt8) : List (Except Failure String) :=
  EventStream.itemsOf none
    ((EventStream.Delivery.mk bytes none).lines.map Text.Utf8.decodeLossy)

theorem itemsIn_lines (lines : List (Line × LineEnd)) (more : List UInt8) :
    itemsIn ((lines.flatMap fun line => ended line.1.chars line.2) ++ more) =
      itemsFor (lines.flatMap fun line => line.1.pieces) ++ itemsIn more := by
  induction lines with
  | nil =>
      rfl
  | cons line rest ih =>
      rw [List.flatMap_cons, List.append_assoc, itemsIn, lines_ended line.1.oneLine,
        List.map_cons, Text.Utf8.decodeLossy_encode, itemsOf_line _ line.2.blank_before]
      rw [itemsIn] at ih
      rw [ih, List.flatMap_cons, itemsFor, itemsFor, itemsFor, List.filter_append,
        List.map_append, List.append_assoc]

theorem itemsIn_closing (closing : Closing) :
    itemsIn closing.bytes = itemsFor closing.pieces := by
  cases closing with
  | nothing =>
      rfl
  | unended line =>
      have honeLine : EventStream.lineFeed ∉ Text.Utf8.encode line.chars := by
        rw [EventStream.lineFeed, Text.Utf8.lineFeed_mem_encode]
        exact line.oneLine
      have hline : EventStream.itemsOf none [line.chars] = itemsFor line.pieces := by
        have hsaid := itemsOf_line line (List.all_nil : ([] : List Char).all _ = true) []
        rw [List.append_nil] at hsaid
        exact hsaid.trans (List.append_nil _)
      rw [itemsIn, Closing.bytes, EventStream.lines_unended honeLine, Closing.pieces,
        ← hline]
      split
      · rename_i hnothing
        have hempty : line.chars = [] := by
          rw [← Text.Utf8.decodeLossy_encode line.chars, hnothing]
          rfl
        rw [hempty]
        rfl
      · rw [List.map_singleton, Text.Utf8.decodeLossy_encode]
  | done gap ending after =>
      rw [itemsIn, Closing.bytes,
        lines_ended (lineFeed_not_mem_data gap.oneLine (by decide)), List.map_cons,
        Text.Utf8.decodeLossy_encode, EventStream.itemsOf,
        ofChars_done gap ending.blank_before]
      rfl

/-!
## Every reply can be sent
-/

theorem oneLine_piece (names : PieceNames) (piece : Quoted) :
    '\n' ∉ (JsonText.compact (.object (names.fields piece))).chars := by
  simp [JsonText.chars_compact, PieceNames.fields, JsonText.Value.tokens,
    JsonText.Value.itemTokens, JsonText.Value.fieldTokens, JsonText.Token.chars,
    JsonText.Mark.char, JsonText.Quoted.lineFeed_not_mem]

def Line.ofPiece (names : PieceNames) (written : Quoted) : Line :=
  .piece ⟨[], rfl, List.not_mem_nil⟩
    ⟨_, names.fields written, rfl, oneLine_piece names written⟩ names written rfl

theorem exists_line (piece : String) : ∃ line : Line, line.pieces = [piece] := by
  rcases JsonText.exists_quoted "choices" with ⟨choices, hchoices, _⟩
  rcases JsonText.exists_quoted "delta" with ⟨delta, hdelta, _⟩
  rcases JsonText.exists_quoted "content" with ⟨content, hcontent, _⟩
  rcases JsonText.exists_quoted piece with ⟨written, hwritten, _⟩
  exact ⟨.ofPiece ⟨choices, delta, content, hchoices, hdelta, hcontent⟩ written,
    congrArg (fun text => [text]) hwritten⟩

theorem exists_sent (pieces : List String) : ∃ sent : SentReply, sent.pieces = pieces := by
  have hlines : ∃ lines : List (Line × LineEnd),
      (lines.flatMap fun line => line.1.pieces) = pieces := by
    induction pieces with
    | nil =>
        exact ⟨[], rfl⟩
    | cons piece rest ih =>
        rcases exists_line piece with ⟨line, hline⟩
        rcases ih with ⟨lines, hlines⟩
        refine ⟨(line, .lineFeed) :: lines, ?_⟩
        rw [List.flatMap_cons, hline, hlines]
        rfl
  rcases hlines with ⟨lines, hlines⟩
  refine ⟨⟨lines, .nothing⟩, ?_⟩
  rw [SentReply.pieces, hlines]
  exact List.append_nil _

/-!
## Reading a sent reply
-/

/-- Every list of pieces can be sent, and however it is sent and cut on the way, the reply
is the pieces joined. -/
theorem collect_sent :
    (∀ pieces : List String, ∃ sent : SentReply, sent.pieces = pieces) ∧
    ∀ (sent : SentReply) (chunks : List (Call (List UInt8))),
      EventStream.delivered chunks = ⟨sent.bytes, none⟩ →
        (EventStream.decode chunks).collect.outcome = .ok (String.join sent.pieces) := by
  refine ⟨exists_sent, ?_⟩
  intro sent chunks harrives
  have hitems : (EventStream.decode chunks).items =
      (sent.pieces.filter fun piece => !piece.isEmpty).map .ok := by
    have hclosing := itemsIn_closing sent.closing
    rw [EventStream.items_decode, harrives]
    show itemsIn sent.bytes = itemsFor sent.pieces
    rw [SentReply.bytes, itemsIn_lines, hclosing, SentReply.pieces, itemsFor, itemsFor,
      itemsFor, List.filter_append, List.map_append]
  rw [ReplyStream.collect_of_contents hitems, join_nonempty]

def plainly (chars : List Char)
    (allowed : chars.all (fun c => 0x20 ≤ c.toNat ∧ c ≠ '"' ∧ c ≠ '\\') = true) : Quoted :=
  chars.pmap .plain fun c hc => of_decide_eq_true (List.all_eq_true.mp allowed c hc)

def plainNames : PieceNames :=
  ⟨plainly "choices".toList rfl, plainly "delta".toList rfl, plainly "content".toList rfl,
    rfl, rfl, rfl⟩

/-- A comment, a letter of two bytes with a line break, an event without choices, an empty
piece, and the end of the reply with more after it. -/
def letterReply : SentReply where
  lines := [
    (.comment " ping".toList (by decide), .lineFeed),
    (.ofPiece plainNames [.plain 'é' (by decide), .short 'n' '\n' (by decide)],
      .carriageReturn),
    (.wordless ⟨[' '], rfl, by decide⟩
      ⟨JsonText.compact (.object [(plainNames.choices, .list [])]), _, rfl, by decide⟩
      (by decide) ⟨rfl, fun hchoices hchoice => by cases hchoices; cases hchoice⟩,
      .lineFeed),
    (.ofPiece plainNames [], .lineFeed)]
  closing := .done ⟨[' ', ' '], rfl, by decide⟩ .lineFeed [0xFF, 0x0A]

def cutLetterReply : List (Call (List UInt8)) :=
  [⟨[.wait 20], .ok (letterReply.bytes.take 46)⟩, .immediate (.ok []),
    .immediate (.ok (letterReply.bytes.drop 46))]

theorem collect_sent_letter :
    EventStream.delivered cutLetterReply = ⟨letterReply.bytes, none⟩ ∧
      (EventStream.decode cutLetterReply).collect.outcome = .ok "é\n" := by
  have harrives : EventStream.delivered cutLetterReply = ⟨letterReply.bytes, none⟩ := by
    simp only [cutLetterReply, EventStream.delivered, Call.immediate, List.append_nil,
      List.nil_append, List.take_append_drop]
  exact ⟨harrives, collect_sent.2 letterReply cutLetterReply harrives⟩

def replyTo (event : List Char) : Except Failure String :=
  (EventStream.decode
    [.immediate (.ok (Text.Utf8.encode ("data: ".toList ++ event ++ ['\n'])))]).collect.outcome

def roleEvent (role after : List Char) : List Char :=
  "\x7b\"choices\":[\x7b\"delta\":\x7b\"role\":".toList ++ role ++ "\x7d\x7d]".toList ++
    after ++ ['}']

/-- The reply fails at an event that the reader does not take, because of the size of a
number, half a surrogate pair or the depth of the nesting, and at the report of an error,
although the delta has no content. -/
theorem replyTo_refused :
    replyTo (roleEvent "\"assistant\"".toList []) = .ok "" ∧
    replyTo (roleEvent "1e999".toList []) =
      .error (.collaborator "ask" "unparseable stream event:") ∧
    replyTo (roleEvent "\"\\ud800\"".toList []) =
      .error (.collaborator "ask" "unparseable stream event:") ∧
    replyTo (roleEvent (List.replicate 128 '[' ++ List.replicate 128 ']') []) =
      .error (.collaborator "ask" "unparseable stream event:") ∧
    replyTo (roleEvent "null".toList ",\"error\":\"quota\"".toList) =
      .error (.collaborator "ask" "stream reported an error: \"quota\"") := by
  decide +kernel

end SentReply
end EndpointTrace
