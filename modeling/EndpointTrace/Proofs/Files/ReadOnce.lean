import EndpointTrace.Files.SourceReader

/-!
# Files are read once

A reader is asked for documents, symbols and texts, one request after the other, and between
two requests the disk may change in any way.  What the reader knows of a file is the text of
the first request that could read it, under whatever spelling of the path; so all answers
about a file come from one text.  A request that fails leaves the reader as it was.
-/

namespace EndpointTrace
namespace SourceReader

/-!
## One request
-/

inductive Request where
  | document (file : FilePath)
  | symbols (file : FilePath)
  | text (file : FilePath)

inductive Answer where
  | document (document : Document)
  | symbols (symbols : List Symbol)
  | text (text : List Char)

namespace Request

def file : Request → FilePath
  | .document file | .symbols file | .text file => file

def answerFrom : Request → List Char → Answer
  | .document _, chars => .document (.ofChars chars)
  | .symbols _, chars => .symbols (Java.symbols (Java.parse chars))
  | .text _, chars => .text chars

end Request

def ask (disk : Disk) (reader : SourceReader) :
    Request → Except Failure Answer × SourceReader
  | .document file =>
      let (document, reader) := reader.document disk file
      (document.map .document, reader)
  | .symbols file =>
      let (symbols, reader) := reader.symbols disk file
      (symbols.map .symbols, reader)
  | .text file =>
      let (text, reader) := reader.source disk file
      (text.map .text, reader)

theorem ask_eq (disk : Disk) (reader : SourceReader) (request : Request) :
    reader.ask disk request =
      ((reader.source disk request.file).1.map request.answerFrom,
        (reader.source disk request.file).2) := by
  rcases request with file | file | file
  · simp only [ask, document, Request.file]
    rcases reader.source disk file with ⟨answer, next⟩
    cases answer <;> rfl
  · simp only [ask, symbols, Request.file]
    rcases reader.source disk file with ⟨answer, next⟩
    cases answer <;> rfl
  · rfl

/-- The disk holds the text of a file, and it is not too long. -/
def Holds (disk : Disk) (maxFileSize : Nat) (file : FilePath) (text : List Char) : Prop :=
  ∃ bytes, disk.bytesAt file = .ok bytes ∧ bytes.length ≤ maxFileSize ∧
    Text.Utf8.decode? bytes = some text

theorem load_eq_ok_iff {disk : Disk} {maxFileSize : Nat} {file : FilePath} {text : List Char} :
    load disk maxFileSize file = .ok text ↔ Holds disk maxFileSize file text := by
  unfold load Holds
  cases disk.bytesAt file with
  | error problem =>
      simp only [reduceCtorEq, false_and, exists_false]
  | ok bytes =>
      by_cases hsize : maxFileSize < bytes.length
      · simp only [if_pos hsize, reduceCtorEq, Except.ok.injEq, exists_eq_left', false_iff]
        rintro ⟨hle, _⟩
        exact absurd hsize (Nat.not_lt.mpr hle)
      · cases hdecode : Text.Utf8.decode? bytes with
        | none =>
            simp only [if_neg hsize, reduceCtorEq, Except.ok.injEq, exists_eq_left', hdecode,
              and_false]
        | some decoded =>
            simp only [if_neg hsize, Except.ok.injEq, exists_eq_left', hdecode, Option.some.injEq,
              Nat.not_lt.mp hsize, true_and]

theorem toOption_load_eq_some_iff {disk : Disk} {maxFileSize : Nat} {file : FilePath}
    {text : List Char} :
    (load disk maxFileSize file).toOption = some text ↔ Holds disk maxFileSize file text := by
  rw [← load_eq_ok_iff]
  cases load disk maxFileSize file with
  | error failure =>
      simp only [Except.toOption, reduceCtorEq]
  | ok loaded =>
      simp only [Except.toOption, Option.some.injEq, Except.ok.injEq]

theorem known?_congr (reader : SourceReader) {file other : FilePath}
    (hsame : file.same other = true) : reader.known? file = reader.known? other := by
  have hcomponents := FilePath.same_iff.mp hsame
  unfold known? FilePath.same
  rw [hcomponents]

theorem known?_cons (reader : SourceReader) (file other : FilePath) (text : List Char) :
    { reader with texts := (file, text) :: reader.texts : SourceReader }.known? other =
      if file.same other then some text else reader.known? other := by
  unfold known?
  rw [List.find?_cons]
  cases file.same other with
  | false =>
      rfl
  | true =>
      rfl

section

variable (disk : Disk) (reader : SourceReader)

/-- A text that is known is answered.  Otherwise the file is read: either the reader knows
its text from then on, or there is none and nothing changes. -/
theorem source_cases (file : FilePath) :
    (∃ text, reader.known? file = some text ∧ reader.source disk file = (.ok text, reader)) ∨
    (∃ text, reader.known? file = none ∧ load disk reader.maxFileSize file = .ok text ∧
      reader.source disk file =
        (.ok text, { reader with texts := (file, text) :: reader.texts })) ∨
    ∃ failure, reader.known? file = none ∧ load disk reader.maxFileSize file = .error failure ∧
      reader.source disk file = (.error failure, reader) := by
  unfold source
  cases hknown : reader.known? file with
  | some text =>
      exact Or.inl ⟨text, rfl, rfl⟩
  | none =>
      cases hload : load disk reader.maxFileSize file with
      | ok text =>
          exact Or.inr (Or.inl ⟨text, rfl, rfl, rfl⟩)
      | error failure =>
          exact Or.inr (Or.inr ⟨failure, rfl, rfl, rfl⟩)

theorem known?_source (file other : FilePath) :
    (reader.source disk file).2.known? other =
      (reader.known? other).or
        (if file.same other then (load disk reader.maxFileSize file).toOption else none) := by
  cases hsame : file.same other with
  | false =>
      rcases reader.source_cases disk file with ⟨_, _, hsource⟩ | ⟨_, _, _, hsource⟩ |
        ⟨_, _, _, hsource⟩
      · rw [hsource]
        exact (Option.or_none).symm
      · rw [hsource, known?_cons, hsame]
        exact (Option.or_none).symm
      · rw [hsource]
        exact (Option.or_none).symm
  | true =>
      rw [← reader.known?_congr hsame]
      rcases reader.source_cases disk file with ⟨_, hknown, hsource⟩ |
        ⟨_, hknown, hload, hsource⟩ | ⟨_, hknown, hload, hsource⟩
      · rw [hsource, ← reader.known?_congr hsame, hknown]
        rfl
      · rw [hsource, known?_cons, hsame, hknown, hload]
        rfl
      · rw [hsource, ← reader.known?_congr hsame, hknown, hload]
        rfl

theorem ask_answer (request : Request) :
    (reader.ask disk request).1 =
      match reader.known? request.file with
      | some text => .ok (request.answerFrom text)
      | none => (load disk reader.maxFileSize request.file).map request.answerFrom := by
  rw [ask_eq]
  rcases reader.source_cases disk request.file with ⟨_, hknown, hsource⟩ |
    ⟨_, hknown, hload, hsource⟩ | ⟨_, hknown, hload, hsource⟩
  · rw [hknown, hsource]
    rfl
  · rw [hknown, hload, hsource]
  · rw [hknown, hload, hsource]

theorem ask_eq_of_error {request : Request} {failure : Failure}
    (hfails : (reader.ask disk request).1 = .error failure) :
    (reader.ask disk request).2 = reader := by
  rw [ask_eq] at hfails ⊢
  rcases reader.source_cases disk request.file with ⟨_, _, hsource⟩ | ⟨_, _, _, hsource⟩ |
    ⟨_, _, _, hsource⟩
  · rw [hsource]
  · rw [hsource] at hfails
    cases hfails
  · rw [hsource]

end

/-!
## Requests one after the other
-/

def after (reader : SourceReader) (visits : List (Disk × Request)) : SourceReader :=
  visits.foldl (fun reader visit => (reader.ask visit.1 visit.2).2) reader

/-- What there is to be read of a file when a request is made, if the request is for it. -/
def reading? (maxFileSize : Nat) (file : FilePath) (visit : Disk × Request) :
    Option (List Char) :=
  if visit.2.file.same file then (load visit.1 maxFileSize visit.2.file).toOption else none

/-- The text that the first request that could has read of a file. -/
def firstReading? (maxFileSize : Nat) (file : FilePath) (visits : List (Disk × Request)) :
    Option (List Char) :=
  visits.findSome? (reading? maxFileSize file)

theorem known?_ask (disk : Disk) (reader : SourceReader) (request : Request) (file : FilePath) :
    (reader.ask disk request).2.known? file =
      (reader.known? file).or (reading? reader.maxFileSize file (disk, request)) := by
  rw [ask_eq]
  exact reader.known?_source disk request.file file

theorem maxFileSize_ask (disk : Disk) (reader : SourceReader) (request : Request) :
    (reader.ask disk request).2.maxFileSize = reader.maxFileSize := by
  rw [ask_eq]
  rcases reader.source_cases disk request.file with ⟨_, _, hsource⟩ | ⟨_, _, _, hsource⟩ |
    ⟨_, _, _, hsource⟩
  · rw [hsource]
  · rw [hsource]
  · rw [hsource]

theorem known?_after (reader : SourceReader) (visits : List (Disk × Request))
    (file : FilePath) :
    (reader.after visits).known? file =
      (reader.known? file).or (firstReading? reader.maxFileSize file visits) := by
  induction visits generalizing reader with
  | nil =>
      exact Option.or_none.symm
  | cons visit rest ih =>
      show ((reader.ask visit.1 visit.2).2.after rest).known? file = _
      rw [ih, known?_ask, maxFileSize_ask, Option.or_assoc, firstReading?, firstReading?,
        List.findSome?_cons]
      cases reading? reader.maxFileSize file visit with
      | none =>
          rfl
      | some text =>
          rfl

theorem maxFileSize_after (reader : SourceReader) (visits : List (Disk × Request)) :
    (reader.after visits).maxFileSize = reader.maxFileSize := by
  induction visits generalizing reader with
  | nil =>
      rfl
  | cons visit rest ih =>
      show ((reader.ask visit.1 visit.2).2.after rest).maxFileSize = _
      rw [ih, maxFileSize_ask]

theorem after_append (reader : SourceReader) (first second : List (Disk × Request)) :
    reader.after (first ++ second) = (reader.after first).after second :=
  List.foldl_append

theorem reading?_congr {maxFileSize : Nat} {file other : FilePath}
    (hsame : file.same other = true) :
    reading? maxFileSize file = reading? maxFileSize other := by
  have hcomponents := FilePath.same_iff.mp hsame
  funext visit
  unfold reading? FilePath.same
  rw [hcomponents]

/-!
## The answers of a new reader
-/

section

variable (root : FilePath) (maxFileSize : Nat)

def answerAfter (before : List (Disk × Request)) (disk : Disk) (request : Request) :
    Except Failure Answer :=
  (((new root maxFileSize).after before).ask disk request).1

def Unanswered (before : List (Disk × Request)) (file : FilePath) : Prop :=
  ∀ front disk request back, before = front ++ (disk, request) :: back →
    request.file.same file = true →
      ∃ failure, answerAfter root maxFileSize front disk request = .error failure

variable {root maxFileSize} {before : List (Disk × Request)} {disk : Disk} {request : Request}

theorem known?_new_after (file : FilePath) :
    ((new root maxFileSize).after before).known? file =
      firstReading? maxFileSize file before := by
  rw [known?_after]
  rfl

theorem answerAfter_eq :
    answerAfter root maxFileSize before disk request =
      match firstReading? maxFileSize request.file before with
      | some text => .ok (request.answerFrom text)
      | none => (load disk maxFileSize request.file).map request.answerFrom := by
  rw [answerAfter, ask_answer, known?_new_after, maxFileSize_after]
  rfl

theorem answerAfter_eq_error_iff :
    (∃ failure, answerAfter root maxFileSize before disk request = .error failure) ↔
      firstReading? maxFileSize request.file before = none ∧
        (load disk maxFileSize request.file).toOption = none := by
  rw [answerAfter_eq]
  cases firstReading? maxFileSize request.file before with
  | some text =>
      simp only [reduceCtorEq, exists_false, false_and]
  | none =>
      cases load disk maxFileSize request.file with
      | error failure =>
          exact iff_of_true ⟨failure, rfl⟩ ⟨rfl, rfl⟩
      | ok text =>
          simp only [Except.map, Except.toOption, reduceCtorEq, exists_false, and_false]

theorem unanswered_iff {file : FilePath} :
    Unanswered root maxFileSize before file ↔ firstReading? maxFileSize file before = none := by
  rw [firstReading?, List.findSome?_eq_none_iff]
  constructor
  · intro hunanswered visit hvisit
    rcases List.append_of_mem hvisit with ⟨front, back, hsplit⟩
    unfold reading?
    split
    · rename_i hsame
      exact (answerAfter_eq_error_iff.mp (hunanswered front _ _ back hsplit hsame)).2
    · rfl
  · intro hnone front disk request back hsplit hsame
    apply answerAfter_eq_error_iff.mpr
    constructor
    · rw [firstReading?, reading?_congr hsame, List.findSome?_eq_none_iff]
      intro visit hvisit
      apply hnone
      rw [hsplit]
      exact List.mem_append_left _ hvisit
    · have hread := hnone (disk, request) (hsplit ▸ List.mem_append_cons_self)
      rw [reading?, if_pos hsame] at hread
      exact hread

theorem answerAfter_of_answered {answer : Answer}
    (hanswered : answerAfter root maxFileSize before disk request = .ok answer) :
    ∃ text, answer = request.answerFrom text ∧
      (Unanswered root maxFileSize before request.file →
        Holds disk maxFileSize request.file text) ∧
      ∀ between later next, next.file.same request.file = true →
        answerAfter root maxFileSize (before ++ (disk, request) :: between) later next =
          .ok (next.answerFrom text) := by
  -- The text is the first one that is read of the file, in this request or before it.
  have hfirst : ∃ text, answer = request.answerFrom text ∧
      (firstReading? maxFileSize request.file before).or
        (load disk maxFileSize request.file).toOption = some text := by
    rw [answerAfter_eq] at hanswered
    cases hread : firstReading? maxFileSize request.file before with
    | some text =>
        rw [hread] at hanswered
        exact ⟨text, (Except.ok.inj hanswered).symm, rfl⟩
    | none =>
        rw [hread] at hanswered
        cases hload : load disk maxFileSize request.file with
        | error failure =>
            rw [hload] at hanswered
            cases hanswered
        | ok text =>
            rw [hload] at hanswered
            exact ⟨text, (Except.ok.inj hanswered).symm, rfl⟩
  rcases hfirst with ⟨text, hanswer, hread⟩
  refine ⟨text, hanswer, ?_, ?_⟩
  · intro hunanswered
    rw [unanswered_iff.mp hunanswered, Option.none_or] at hread
    exact toOption_load_eq_some_iff.mp hread
  · intro between later next hsame
    have hown : reading? maxFileSize request.file (disk, request) =
        (load disk maxFileSize request.file).toOption :=
      if_pos (FilePath.same_iff.mpr rfl)
    have hwhole : firstReading? maxFileSize next.file (before ++ (disk, request) :: between) =
        some text := by
      rw [firstReading?, reading?_congr hsame, List.findSome?_append, List.findSome?_cons, hown]
      rw [firstReading?] at hread
      cases hbefore : before.findSome? (reading? maxFileSize request.file) with
      | some earlier =>
          rw [hbefore] at hread
          exact hread
      | none =>
          rw [hbefore, Option.none_or] at hread
          rw [hread]
          rfl
    rw [answerAfter_eq, hwhole]

theorem answerAfter_of_failed {failure : Failure}
    (hfailed : answerAfter root maxFileSize before disk request = .error failure)
    (between : List (Disk × Request)) (later : Disk) (next : Request) :
    answerAfter root maxFileSize (before ++ (disk, request) :: between) later next =
      answerAfter root maxFileSize (before ++ between) later next := by
  have hsame : (new root maxFileSize).after (before ++ (disk, request) :: between) =
      (new root maxFileSize).after (before ++ between) := by
    rw [after_append, after_append]
    exact congrArg (after · between) (ask_eq_of_error disk _ hfailed)
  rw [answerAfter, hsame, answerAfter]

end

/-- Whatever happens to the files, all answers about one of them come from one text: once a
request for it is answered, all later ones are, under any spelling of its path, and the text
is the one that the first of them found on the disk.  A request fails if none for its file
has been answered and the disk does not hold the text, and then it makes no difference to any
later answer. -/
theorem one_version (root : FilePath) (maxFileSize : Nat) (before : List (Disk × Request))
    (disk : Disk) (request : Request) :
    (∀ answer, answerAfter root maxFileSize before disk request = .ok answer →
      ∃ text, answer = request.answerFrom text ∧
        (Unanswered root maxFileSize before request.file →
          Holds disk maxFileSize request.file text) ∧
        ∀ between later next, next.file.same request.file = true →
          answerAfter root maxFileSize (before ++ (disk, request) :: between) later next =
            .ok (next.answerFrom text)) ∧
    ((∃ failure, answerAfter root maxFileSize before disk request = .error failure) ↔
      Unanswered root maxFileSize before request.file ∧
        ∀ text, ¬ Holds disk maxFileSize request.file text) ∧
    ∀ failure, answerAfter root maxFileSize before disk request = .error failure →
      ∀ between later next,
        answerAfter root maxFileSize (before ++ (disk, request) :: between) later next =
          answerAfter root maxFileSize (before ++ between) later next := by
  refine ⟨fun answer => answerAfter_of_answered, ?_, fun failure => answerAfter_of_failed⟩
  rw [answerAfter_eq_error_iff, unanswered_iff]
  apply and_congr_right
  intro _
  rw [Option.eq_none_iff_forall_ne_some]
  exact forall_congr' fun text => not_congr toOption_load_eq_some_iff

def diskWith (source : String) : Disk where
  home := ["home"]
  entries :=
    [("home", .directory [("src", .directory
      [("A.java", .file (Text.Utf8.encode source.toList))])])]

def large : String := "class Large \x7b\x7d"

def small : String := "class A \x7b\x7d"

/-- The file is too long, then it is read, then it is replaced, and then it is gone. -/
theorem one_version_replaced :
    (∃ failure, answerAfter ⟨""⟩ 10 [] (diskWith large) (.text ⟨"src/A.java"⟩) =
      .error failure) ∧
    answerAfter ⟨""⟩ 10 [(diskWith large, .text ⟨"src/A.java"⟩)] (diskWith small)
      (.text ⟨"src/A.java"⟩) = .ok (.text small.toList) ∧
    FilePath.same ⟨"src//A.java"⟩ ⟨"src/A.java"⟩ = true ∧
    answerAfter ⟨""⟩ 10
        [(diskWith large, .text ⟨"src/A.java"⟩), (diskWith small, .text ⟨"src/A.java"⟩),
          (diskWith "class B \x7b\x7d", .document ⟨"src/A.java"⟩)]
        ⟨[], []⟩ (.symbols ⟨"src//A.java"⟩) =
      .ok (.symbols (Java.symbols (Java.parse small.toList))) := by
  obtain ⟨failure, hfailed⟩ : ∃ failure, answerAfter ⟨""⟩ 10 [] (diskWith large)
      (.text ⟨"src/A.java"⟩) = .error failure :=
    answerAfter_eq_error_iff.mpr ⟨rfl, by decide +kernel⟩
  have hload : load (diskWith small) 10 ⟨"src/A.java"⟩ = .ok small.toList :=
    load_eq_ok_iff.mpr (toOption_load_eq_some_iff.mp (by decide +kernel))
  have halone : answerAfter ⟨""⟩ 10 [] (diskWith small) (.text ⟨"src/A.java"⟩) =
      .ok (.text small.toList) := by
    rw [answerAfter_eq]
    exact congrArg (Except.map Answer.text) hload
  have hsame : FilePath.same ⟨"src//A.java"⟩ ⟨"src/A.java"⟩ = true := by decide +kernel
  have hanswered := (one_version ⟨""⟩ 10 [] (diskWith large) (.text ⟨"src/A.java"⟩)).2.2 _
    hfailed [] (diskWith small) (.text ⟨"src/A.java"⟩)
  rw [List.append_nil, halone] at hanswered
  rcases (one_version ⟨""⟩ 10 [(diskWith large, .text ⟨"src/A.java"⟩)] (diskWith small)
    (.text ⟨"src/A.java"⟩)).1 _ hanswered with ⟨text, htext, _, hlater⟩
  obtain rfl := Answer.text.inj htext
  exact ⟨⟨_, hfailed⟩, hanswered, hsame,
    hlater [(diskWith "class B \x7b\x7d", .document ⟨"src/A.java"⟩)] _ _ hsame⟩

end SourceReader
end EndpointTrace
