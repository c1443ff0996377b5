import EndpointTrace.Assistant.EventStream
import EndpointTrace.Proofs.Text.Encoding

/-!
# Chunks of an event stream

What a stream says is a matter of its lines, and its lines are a matter of its bytes, not
of the chunks in which they come.  Here the items of a reply are read off the lines of all
bytes at once, and decoding chunk by chunk is shown to give the same items, one chunk at a
time: the complete lines of a chunk say what they say, and the rest of the chunk is a
beginning of what the next one brings.
-/

namespace EndpointTrace

namespace ReplyStream

def items (stream : ReplyStream) : List (Except Failure String) :=
  stream.pieces.map Call.outcome

/-!
## Whole replies
-/

theorem collectFrom_pieces {reply : String} {closing : List Step} {contents : List String}
    {pieces rest : List (Call String)} (hpieces : pieces.map Call.outcome = contents.map .ok) :
    (collectFrom reply closing (pieces ++ rest)).outcome =
      (collectFrom (contents.foldl (· ++ ·) reply) closing rest).outcome := by
  induction pieces generalizing contents reply with
  | nil =>
      rw [List.map_nil] at hpieces
      rw [List.map_eq_nil_iff.mp hpieces.symm]
      rfl
  | cons piece pieces ih =>
      cases contents with
      | nil =>
          cases hpieces
      | cons content contents =>
          rw [List.map_cons, List.map_cons, List.cons.injEq] at hpieces
          rw [List.cons_append, collectFrom, hpieces.1, List.foldl_cons]
          exact ih hpieces.2

theorem collect_of_contents {stream : ReplyStream} {contents : List String}
    (hitems : stream.items = contents.map .ok) :
    stream.collect.outcome = .ok (String.join contents) := by
  have hcollected : (collectFrom "" stream.closing (stream.pieces ++ [])).outcome =
      (collectFrom (String.join contents) stream.closing []).outcome :=
    collectFrom_pieces hitems
  rw [List.append_nil] at hcollected
  exact hcollected

theorem collect_of_failure {stream : ReplyStream} {contents : List String}
    {failure : Failure} (hitems : stream.items = contents.map .ok ++ [.error failure]) :
    stream.collect.outcome = .error failure := by
  rcases List.map_eq_append_iff.mp hitems with ⟨pieces, last, hsplit, hpieces, hlast⟩
  rcases List.map_eq_singleton_iff.mp hlast with ⟨piece, rfl, hpiece⟩
  rw [collect, hsplit, collectFrom_pieces hpieces, collectFrom, hpiece]

end ReplyStream

namespace EventStream

/-!
## What is delivered and what it says
-/

/-- What a source brings: bytes, and the failure that ends them, if one does. -/
structure Delivery where
  bytes : List UInt8
  failure : Option Failure

/-- What chunks bring together.  Nothing comes after a failure. -/
def delivered : List (Call (List UInt8)) → Delivery
  | [] => ⟨[], none⟩
  | chunk :: rest =>
      match chunk.outcome with
      | .error failure => ⟨[], some failure⟩
      | .ok bytes => ⟨bytes ++ (delivered rest).bytes, (delivered rest).failure⟩

/-- The lines that count.  What follows the last line feed is one of them, unless it is
empty or a failure has cut it off. -/
def Delivery.lines (delivery : Delivery) : List (List UInt8) :=
  let parts := delivery.bytes.splitOn lineFeed
  if delivery.failure.isSome ∨ parts.getLast? = some [] then parts.dropLast else parts

/-- What lines say, up to the first one after which nothing counts; a failure of the
source comes last. -/
def itemsOf (failure : Option Failure) : List (List Char) → List (Except Failure String)
  | [] => (failure.map Except.error).toList
  | line :: rest =>
      match EventLine.ofChars line with
      | .content text => .ok text :: itemsOf failure rest
      | .skip => itemsOf failure rest
      | .done => []
      | .malformed fault => [.error (.collaborator "ask" fault.describe)]

theorem itemsOf_cases (failure : Option Failure) (lines : List (List Char)) :
    ∃ contents : List String, itemsOf failure lines = contents.map .ok ∨
      ∃ last, itemsOf failure lines = contents.map .ok ++ [.error last] := by
  induction lines with
  | nil =>
      cases failure with
      | none =>
          exact ⟨[], Or.inl rfl⟩
      | some last =>
          exact ⟨[], Or.inr ⟨last, rfl⟩⟩
  | cons line rest ih =>
      rcases ih with ⟨contents, hitems⟩
      rw [itemsOf]
      cases EventLine.ofChars line with
      | skip =>
          exact ⟨contents, hitems⟩
      | done =>
          exact ⟨[], Or.inl rfl⟩
      | malformed fault =>
          exact ⟨[], Or.inr ⟨_, rfl⟩⟩
      | content text =>
          refine ⟨text :: contents, ?_⟩
          rcases hitems with heq | ⟨last, heq⟩
          · exact Or.inl (by rw [heq]; rfl)
          · exact Or.inr ⟨last, by rw [heq]; rfl⟩

/-!
## Lines of bytes
-/

theorem splitOn_append_of_splitLines {bytes last : List UInt8} {lines : List (List UInt8)}
    (hsplit : splitLines bytes = (lines, last)) (more : List UInt8) :
    lineFeed ∉ last ∧
      (bytes ++ more).splitOn lineFeed = lines ++ (last ++ more).splitOn lineFeed := by
  induction bytes generalizing lines last with
  | nil =>
      cases hsplit
      exact ⟨List.not_mem_nil, rfl⟩
  | cons byte rest ih =>
      cases hrest : splitLines rest with
      | mk found left =>
          rcases ih hrest with ⟨hleft, hparts⟩
          rw [splitLines, hrest] at hsplit
          by_cases hfeed : byte = lineFeed
          · simp only [if_pos hfeed, Prod.mk.injEq] at hsplit
            rcases hsplit with ⟨rfl, rfl⟩
            refine ⟨hleft, ?_⟩
            rw [List.cons_append, List.splitOn_cons_eq_if_modifyHead, if_pos (by simp [hfeed]),
              hparts, List.cons_append]
          · rw [List.cons_append, List.splitOn_cons_eq_if_modifyHead,
              if_neg (by simp [hfeed]), hparts]
            cases found with
            | nil =>
                simp only [if_neg hfeed, Prod.mk.injEq] at hsplit
                rcases hsplit with ⟨rfl, rfl⟩
                refine ⟨by simp [hleft, Ne.symm hfeed], ?_⟩
                rw [List.cons_append, List.splitOn_cons_eq_if_modifyHead,
                  if_neg (by simp [hfeed])]
                rfl
            | cons line found =>
                simp only [if_neg hfeed, Prod.mk.injEq] at hsplit
                rcases hsplit with ⟨rfl, rfl⟩
                exact ⟨hleft, rfl⟩

theorem lines_of_parts {bytes rest : List UInt8} {failure : Option Failure}
    {lines : List (List UInt8)}
    (hparts : bytes.splitOn lineFeed = lines ++ rest.splitOn lineFeed) :
    (Delivery.mk bytes failure).lines = lines ++ (Delivery.mk rest failure).lines := by
  have hne : rest.splitOn lineFeed ≠ [] := List.splitOn_ne_nil lineFeed rest
  have hlast : (bytes.splitOn lineFeed).getLast? = (rest.splitOn lineFeed).getLast? := by
    rw [hparts, List.getLast?_append, List.getLast?_eq_some_getLast hne, Option.some_or]
  simp only [Delivery.lines, hlast]
  split
  · rw [hparts, List.dropLast_append_of_ne_nil hne]
  · exact hparts

theorem lines_unended {bytes : List UInt8} (hbytes : lineFeed ∉ bytes) :
    (Delivery.mk bytes none).lines = if bytes = [] then [] else [bytes] := by
  simp only [Delivery.lines, List.splitOn_eq_singleton hbytes]
  by_cases hnil : bytes = []
  · rw [if_pos (Or.inr (by rw [hnil]; rfl)), if_pos hnil]
    rfl
  · rw [if_neg (by simpa using hnil), if_neg hnil]

theorem lines_cutOff {bytes : List UInt8} (hbytes : lineFeed ∉ bytes) (failure : Failure) :
    (Delivery.mk bytes (some failure)).lines = [] := by
  simp only [Delivery.lines, List.splitOn_eq_singleton hbytes]
  rfl

/-!
## Lines of a text
-/

theorem splitOn_append_of_not_mem {bytes : List UInt8} (hbytes : lineFeed ∉ bytes)
    (more : List UInt8) :
    (bytes ++ more).splitOn lineFeed = (more.splitOn lineFeed).modifyHead (bytes ++ ·) := by
  induction bytes with
  | nil =>
      exact (congrFun List.modifyHead_id (more.splitOn lineFeed)).symm
  | cons byte rest ih =>
      rcases not_or.mp (fun hmem => hbytes (List.mem_cons.mpr hmem)) with ⟨hbyte, hrest⟩
      rw [List.cons_append, List.splitOn_cons_eq_if_modifyHead,
        if_neg (by simpa using Ne.symm hbyte), ih hrest, List.modifyHead_modifyHead]
      rfl

/-- The bytes between two line feeds are what a line of the text is encoded to, wherever
its characters have been cut. -/
theorem splitOn_encode (text : List Char) :
    (Text.Utf8.encode text).splitOn lineFeed =
      (text.splitOn '\n').map Text.Utf8.encode := by
  induction text with
  | nil =>
      rfl
  | cons c rest ih =>
      rw [Text.Utf8.encode_cons, List.splitOn_cons_eq_if_modifyHead]
      by_cases hfeed : c = '\n'
      · have hbytes : String.utf8EncodeChar c = [lineFeed] := by
          rw [hfeed]
          rfl
        rw [hbytes, List.singleton_append, List.splitOn_cons_eq_if_modifyHead,
          if_pos (beq_self_eq_true _), if_pos (by simp [hfeed]), ih]
        rfl
      · have hbytes : lineFeed ∉ String.utf8EncodeChar c := fun hmem =>
          hfeed (Text.Utf8.lineFeed_mem_character.mp hmem)
        rw [splitOn_append_of_not_mem hbytes, ih, if_neg (by simpa using hfeed)]
        cases rest.splitOn '\n' <;> rfl

theorem decoded_splitOn_encode (text : List Char) :
    ((Text.Utf8.encode text).splitOn lineFeed).map Text.Utf8.decodeLossy =
      text.splitOn '\n' := by
  rw [splitOn_encode, List.map_map]
  simp [Function.comp_def]

/-!
## Reading chunk by chunk
-/

theorem itemsOf_append (failure : Option Failure) (steps : List Step)
    (lines more : List (List UInt8)) :
    itemsOf failure ((lines ++ more).map Text.Utf8.decodeLossy) =
      (readLines steps lines).1.map Call.outcome ++
        match (readLines steps lines).2 with
        | .open _ => itemsOf failure (more.map Text.Utf8.decodeLossy)
        | .closed _ => [] := by
  induction lines generalizing steps with
  | nil =>
      rfl
  | cons line rest ih =>
      rw [List.cons_append, List.map_cons, itemsOf, readLines]
      cases EventLine.ofChars (Text.Utf8.decodeLossy line) with
      | skip =>
          exact ih steps
      | done =>
          rfl
      | malformed fault =>
          rfl
      | content text =>
          simp only [ih [], List.map_cons, List.cons_append]

theorem items_decodeFrom (chunks : List (Call (List UInt8))) {held : List UInt8}
    (hheld : lineFeed ∉ held) (steps : List Step) :
    (decodeFrom held steps chunks).items =
      itemsOf (delivered chunks).failure
        ((Delivery.mk (held ++ (delivered chunks).bytes)
          (delivered chunks).failure).lines.map Text.Utf8.decodeLossy) := by
  induction chunks generalizing held steps with
  | nil =>
      simp only [delivered, List.append_nil, lines_unended hheld, decodeFrom,
        List.isEmpty_iff]
      by_cases hnil : held = []
      · rw [if_pos hnil, if_pos hnil]
        rfl
      · have hline := itemsOf_append none steps [held] []
        rw [if_neg hnil, if_neg hnil]
        rw [List.append_nil] at hline
        rw [hline]
        simp only [ReplyStream.items]
        cases (readLines steps [held]).2 <;> simp [itemsOf]
  | cons chunk rest ih =>
      cases houtcome : chunk.outcome with
      | error failure =>
          simp only [delivered, decodeFrom, houtcome, List.append_nil, lines_cutOff hheld]
          rfl
      | ok bytes =>
          cases hsplit : splitLines (held ++ bytes) with
          | mk lines last =>
              have hlines := splitOn_append_of_splitLines hsplit (delivered rest).bytes
              simp only [delivered, decodeFrom, houtcome, hsplit]
              rw [← List.append_assoc, lines_of_parts hlines.2, itemsOf_append _
                (steps ++ chunk.steps)]
              cases hread : readLines (steps ++ chunk.steps) lines with
              | mk pieces ending =>
                  cases ending with
                  | «open» later =>
                      simp only [ReplyStream.items, List.map_append]
                      rw [← ih hlines.1 later]
                      rfl
                  | closed later =>
                      simp only [ReplyStream.items, List.append_nil]

theorem items_decode (chunks : List (Call (List UInt8))) :
    (decode chunks).items =
      itemsOf (delivered chunks).failure
        ((delivered chunks).lines.map Text.Utf8.decodeLossy) :=
  items_decodeFrom chunks List.not_mem_nil []

/-- Sources that bring the same bytes and end alike give the same items, however the bytes
are cut: those of the decoded lines.  An error is the last item, and then the reply is that
error; without one it is all contents joined. -/
theorem decode_recut {first second : List (Call (List UInt8))}
    (hsame : delivered first = delivered second) :
    (decode first).items = (decode second).items ∧
    (decode first).items =
      itemsOf (delivered first).failure
        ((delivered first).lines.map Text.Utf8.decodeLossy) ∧
    (∀ text, (delivered first).bytes = Text.Utf8.encode text →
      ((delivered first).bytes.splitOn lineFeed).map Text.Utf8.decodeLossy =
        text.splitOn '\n') ∧
    ∃ contents : List String,
      ((decode first).items = contents.map .ok ∧
        (decode first).collect.outcome = .ok (String.join contents)) ∨
      ∃ failure, (decode first).items = contents.map .ok ++ [.error failure] ∧
        (decode first).collect.outcome = .error failure := by
  refine ⟨?_, items_decode first, ?_, ?_⟩
  · rw [items_decode, items_decode, hsame]
  · intro text hbytes
    rw [hbytes, decoded_splitOn_encode]
  · rcases itemsOf_cases (delivered first).failure
      ((delivered first).lines.map Text.Utf8.decodeLossy) with ⟨contents, hitems⟩
    rw [← items_decode] at hitems
    refine ⟨contents, ?_⟩
    rcases hitems with heq | ⟨failure, heq⟩
    · exact Or.inl ⟨heq, ReplyStream.collect_of_contents heq⟩
    · exact Or.inr ⟨failure, heq, ReplyStream.collect_of_failure heq⟩

def brokenReply : List Char :=
  "data: \x7b\"choices\":[\x7b\"delta\":\x7b\"content\":\"é\"\x7d\x7d]\x7d\ndata: 4".toList

def reset : Failure := .collaborator "ask" "connection reset"

def atOnce : List (Call (List UInt8)) :=
  [.immediate (.ok (Text.Utf8.encode brokenReply)), .immediate (.error reset)]

def bitByBit : List (Call (List UInt8)) :=
  [⟨[.wait 20], .ok ((Text.Utf8.encode brokenReply).take 40)⟩, .immediate (.ok []),
    .immediate (.ok ((Text.Utf8.encode brokenReply).drop 40)), ⟨[.wait 5], .error reset⟩]

theorem decode_recut_letter :
    delivered bitByBit = delivered atOnce ∧
      (decode bitByBit).items = [.ok "é", .error reset] ∧
      (decode bitByBit).collect.outcome = .error reset := by
  have hsame : delivered bitByBit = delivered atOnce := rfl
  rcases decode_recut hsame with ⟨hrecut, _, _, contents, hreply⟩
  have hitems : (decode bitByBit).items = [.ok "é", .error reset] := by
    rw [hrecut]
    rfl
  refine ⟨hsame, hitems, ?_⟩
  rcases hreply with ⟨heq, _⟩ | ⟨failure, heq, hcollect⟩
  · have hmem : Except.error reset ∈ contents.map Except.ok := by
      rw [← heq, hitems]
      exact List.mem_cons_of_mem _ List.mem_cons_self
    simp at hmem
  · have hlast := congrArg List.getLast? (hitems.symm.trans heq)
    rw [List.getLast?_append] at hlast
    cases hlast
    exact hcollect

end EventStream
end EndpointTrace
