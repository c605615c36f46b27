import ApiClient.Text.CaseMap
import ApiClient.Text.Pieces

namespace ApiClient.Text

inductive CaseMode where
  | boundary
  | lower
  | upper
deriving DecidableEq

def CaseMode.next (mode : CaseMode) (c : Char) : CaseMode :=
  if isLowercase c then .lower else if isUppercase c then .upper else mode

def caseWords (mode : CaseMode) (held : List Char) : List Char → List (List Char)
  | [] => []
  | [c] => [(c :: held).reverse]
  | c :: next :: rest =>
    if mode.next c = .lower ∧ isUppercase next then
      (c :: held).reverse :: caseWords .boundary [] (next :: rest)
    else if mode = .upper ∧ isUppercase c ∧ isLowercase next then
      held.reverse :: caseWords .boundary [c] (next :: rest)
    else
      caseWords (mode.next c) (c :: held) (next :: rest)

def words (cs : List Char) : List (List Char) :=
  (cs.splitOnP fun c => !isAlphanumeric c).flatMap (caseWords .boundary [])

def capitalize : List Char → List Char
  | [] => []
  | c :: rest => toUppercase c ++ lowercase rest

def lowerCamel (cs : List Char) : List Char :=
  match words cs with
  | [] => []
  | w :: ws => lowercase w ++ ws.flatMap capitalize

end ApiClient.Text
