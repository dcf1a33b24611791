import Satzbau.Files

namespace Satzbau.StandardLibrary

/-- The words and functions that programs have unless they do without. -/
def lines : List String :=
  [
    "// Standardbibliothek",
    "",
    "/* Deklinationen der eingebauten Typen */",
    "Deklination Femininum Singular(Zahl, Zahl, Zahl, Zahl) Plural(Zahlen, Zahlen, Zahlen, Zahlen)",
    "Deklination Femininum Singular(Zeichenfolge, Zeichenfolge, Zeichenfolge, Zeichenfolge) " ++
      "Plural(Zeichenfolgen, Zeichenfolgen, Zeichenfolgen, Zeichenfolgen)",
    "Deklination Neutrum Singular(Boolean, Booleans, Boolean, Boolean) Plural(Booleans, Booleans, Booleans, Booleans)",
    "",
    "/* Häufige Nomen */",
    "Deklination Femininum Singular(Zeile, Zeile, Zeile, Zeile) Plural(Zeilen, Zeilen, Zeilen, Zeilen)",
    "Deklination Femininum Singular(Liste, Liste, Liste, Liste) Plural(Listen, Listen, Listen, Listen)",
    "Deklination Femininum Singular(Länge, Länge, Länge, Länge) Plural(Längen, Längen, Längen, Längen)",
    "Deklination Maskulinum Singular(Text, Textes, Text, Text) Plural(Texte, Texte, Texten, Texte)",
    "Deklination Maskulinum Singular(Wert, Wertes, Wert, Wert) Plural(Werte, Werte, Werten, Werte)",
    "Deklination Maskulinum Singular(Name, Namens, Namen, Namen) Plural(Namen, Namen, Namen, Namen)",
    "",
    "// Ausgabe",
    "Verb schreibe die Zeile:",
    "  intern",
    ".",
    "",
    "Verb schreibe die Zeichenfolge:",
    "  intern",
    ".",
    "",
    "Verb schreibe die Zahl:",
    "  intern",
    ".",
    "",
    "Verb schreibe den Text:",
    "  intern",
    ".",
    "",
    "// Eingabe",
    "Verb (Zeichenfolge) lies:",
    "  intern",
    ".",
    "",
    "// Zahlen",
    "Verb (Zahl) runde die Zahl:",
    "  intern",
    ".",
    "",
    "Verb (Zahl) runde die Zahl ab:",
    "  intern",
    ".",
    "",
    "Verb (Zahl) runde die Zahl auf:",
    "  intern",
    ".",
    "",
    "Verb (Zahl) addiere die Zahl X mit der Zahl Y:",
    "  gebe X plus Y zurück",
    "."]

def text : String :=
  String.join (lines.map (· ++ "\n"))

/-- A tree of files in which the standard library stands at a place. -/
def addTo (place : Place) (files : Files) : Files :=
  { files with contents := (place, text.toUTF8) :: files.contents }

end Satzbau.StandardLibrary
