/-!
# Path Tokens

A path is cut at its delimiters before it is matched. Every occurrence of a
delimiter becomes a token of its own and every run between two of them one
token, so that nothing is lost: the tokens put together are the path again.

Delimiters are texts here and need not be single characters; at each place the
first of them that fits is taken. An empty delimiter, or having none at all,
sets every character apart.

## Main definitions

* `tokensFrom`: The tokens of the rest of a path.
* `tokens`: The tokens of a path.
* `isDelimiter`: The token is a delimiter.

## Theorems

* `flatten_tokensFrom`, `join_tokens`: No character is lost or added.
-/

namespace PathRouting

namespace Tokens

/-- The run that has been collected, as a token unless it is empty. The run is
    kept with its latest character first. -/
def closeRun (run : List Char) : List (List Char) :=
  if run.isEmpty then [] else [run.reverse]

/-- The tokens of the rest of a path, with the run collected before it. The
    next `skip` characters belong to a delimiter that has been taken already. -/
def tokensFrom (marks : List (List Char)) (apart : Bool) :
    Nat → List Char → List Char → List (List Char)
  | _, run, [] => closeRun run
  | skip + 1, run, _ :: rest => tokensFrom marks apart skip run rest
  | 0, run, c :: rest =>
    match marks.find? fun m => m.isPrefixOf (c :: rest) with
    | some m => closeRun run ++ m :: tokensFrom marks apart (m.length - 1) [] rest
    | none =>
      if apart then closeRun run ++ tokensFrom marks apart 0 [c] rest
      else tokensFrom marks apart 0 (c :: run) rest

/-- The tokens of a path. None of them is empty. At each place the first
    delimiter that fits is taken, in the order in which they are given and not
    the longest. -/
def tokens (delimiters : List String) (path : String) : List String :=
  let marks := (delimiters.map String.toList).filter (!·.isEmpty)
  let apart := delimiters.isEmpty || delimiters.contains ""
  (tokensFrom marks apart 0 [] path.toList).map String.ofList

/-- The token is a delimiter. -/
def isDelimiter (delimiters : List String) (token : String) : Bool :=
  delimiters.contains token

theorem closeRun_nil : closeRun [] = [] := rfl

@[simp] theorem flatten_closeRun (run : List Char) : (closeRun run).flatten = run.reverse := by
  unfold closeRun
  split
  · simp_all
  · simp

/-- No character is lost or added: the tokens, put together, are the run and
    the rest behind what is skipped. -/
theorem flatten_tokensFrom (marks : List (List Char)) (apart : Bool)
    (hm : ∀ m ∈ marks, m ≠ []) (skip : Nat) (run cs : List Char) (hr : 0 < skip → run = []) :
    (tokensFrom marks apart skip run cs).flatten = run.reverse ++ cs.drop skip := by
  induction cs generalizing skip run with
  | nil => cases skip <;> simp [tokensFrom]
  | cons c rest ih =>
    cases skip with
    | succ skip =>
      simp only [tokensFrom, List.drop_succ_cons]
      exact ih skip run fun _ => hr (Nat.succ_pos _)
    | zero =>
      simp only [tokensFrom, List.drop_zero]
      split
      · next m hfind =>
        -- A delimiter that fits is what the next characters are, so passing over them loses
        -- nothing.
        have hpre : m.isPrefixOf (c :: rest) = true := by simpa using List.find?_some hfind
        have hne := hm m (List.mem_of_find?_eq_some hfind)
        obtain ⟨t, ht⟩ := List.isPrefixOf_iff_prefix.1 hpre
        match m, hne with
        | x :: xs, _ =>
          simp only [List.cons_append, List.cons.injEq] at ht
          obtain ⟨rfl, rfl⟩ := ht
          simp [ih xs.length [] (by simp)]
      · split
        · simp [ih 0 [c] (by simp)]
        · simp [ih 0 (c :: run) (by simp)]

/-- Pieces put together as texts hold the characters of the pieces. -/
theorem toList_join_ofList (pieces : List (List Char)) :
    (String.join (pieces.map String.ofList)).toList = pieces.flatten := by
  rw [String.toList_join]
  induction pieces with
  | nil => rfl
  | cons piece rest ih => simp [List.flatMap_cons, ih]

/-- The tokens of a path, put together, are the path. -/
theorem join_tokens (delimiters : List String) (path : String) :
    String.join (tokens delimiters path) = path := by
  have hmarks : ∀ m ∈ (delimiters.map String.toList).filter (!·.isEmpty), m ≠ [] := by
    intro m hm hempty
    rw [hempty] at hm
    cases (List.mem_filter.1 hm).2
  refine String.toList_inj.1 ?_
  rw [tokens, toList_join_ofList, flatten_tokensFrom _ _ hmarks 0 [] _ fun _ => rfl]
  rfl

end Tokens

end PathRouting
