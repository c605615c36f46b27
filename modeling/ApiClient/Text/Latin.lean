namespace ApiClient.Text

def isIdeograph (c : Char) : Bool :=
  0x4E00 ≤ c.toNat && c.toNat ≤ 0x9FA5

def readings : List (Char × String) := [
  ('一', "Yi"), ('列', "Lie"), ('单', "Dan"), ('取', "Qu"), ('宠', "Chong"), ('户', "Hu"),
  ('日', "Ri"), ('本', "Ben"), ('物', "Wu"), ('猫', "Mao"), ('理', "Li"), ('用', "Yong"),
  ('管', "Guan"), ('获', "Huo"), ('表', "Biao"), ('订', "Ding"), ('龥', "Yu")]

/-- A spelling of every character outside ASCII. -/
class Transliteration where
  spelling : Char → List Char

/-- A character without a reading of its own is spelt by its code point. -/
instance listedReadings : Transliteration where
  spelling c :=
    match readings.lookup c with
    | some reading => reading.toList
    | none => 'U' :: (Nat.toDigits 16 c.toNat)

def latin [Transliteration] (c : Char) : List Char :=
  if c.toNat < 128 then [c] else Transliteration.spelling c

end ApiClient.Text
