import Phrasebook.Catalog.Module
import Phrasebook.Text.LowerCase

/-!
# Provider modules

The provider is a React module shared by all languages. It imports the parameter types of every
language, keeps the current language in a reducer, and loads the module of a language when it is
chosen.
-/

namespace Phrasebook.Provider

open Layout

/-- The name of the provider's file, unless another one is chosen. -/
def defaultFile : Text := "TranslationContext.tsx"

/-- Where the modules of the languages are imported from, unless another place is chosen. -/
def defaultImportRoot : Text := "@i18n"

/-- The character of an imported name for a character of a language. -/
def nameChar (c : Char) : Char := if c.isAlphanum then c.toUpper else '_'

/-- The name under which the parameter type of a language is imported. -/
def propsName (language : Text) : Text := "Props" ++ language.map nameChar

/-- The name of the files of a language, without extension. -/
def fileStem (language : Text) : Text := Text.lower language

/-- An import root without slashes at its end. -/
def trimSlashes (importRoot : Text) : Text :=
  (importRoot.reverse.dropWhile (· == '/')).reverse

/-- The union of the parameter types of all languages. -/
def union (languages : List Text) : Text :=
  if languages.isEmpty then "never" else Text.joinWith " | " (languages.map propsName)

/-- The line that imports the parameter type of a language. -/
def importLine (importRoot language : Text) : Text :=
  "import \x7b Props as " ++ propsName language ++ " \x7d from \"" ++ importRoot ++ "/" ++
    fileStem language ++ "\";"

/-- The state, the actions on it, and the components that share it. -/
def stateAndReducer : Layout :=
  [ .line "interface IState \x7b",
    .line "    lang?: string;",
    .line "    translation?: (...p: TranslationProps) => string;",
    .line "\x7d",
    .newline,
    .line "enum ACTIONTYPE \x7b",
    .line "    CHANGE_LANG = \"CHANGE_LANG\",",
    .line "\x7d",
    .newline,
    .line ("type ACTION = \x7b type: ACTIONTYPE.CHANGE_LANG; payload: \x7b lang: string; " ++
      "translation: (...p: TranslationProps) => string \x7d \x7d;"),
    .newline,
    .line "interface IContextProps \x7b",
    .line "    state: IState;",
    .line "    dispatch: (action: ACTION) => void;",
    .line "\x7d",
    .newline,
    .line "const TranslationContext = createContext<IContextProps>(\x7b\x7d as IContextProps);",
    .newline,
    .line "function reducer(state: IState, action: ACTION): IState \x7b",
    .line "    switch (action.type) \x7b",
    .line "        case ACTIONTYPE.CHANGE_LANG:",
    .line "            return \x7b",
    .line "                ...state,",
    .line "                lang: action.payload.lang,",
    .line "                translation: action.payload.translation,",
    .line "            \x7d;",
    .line "        default:",
    .line "            return state;",
    .line "    \x7d",
    .line "\x7d",
    .newline,
    .line ("export const TranslationProvider = (\x7b children \x7d: \x7b children: ReactNode " ++
      "\x7d): JSX.Element => \x7b"),
    .line "    const [state, dispatch] = useReducer(reducer, \x7b\x7d);",
    .line ("    return <TranslationContext.Provider value=\x7b\x7b state, dispatch \x7d\x7d>" ++
      "\x7bchildren\x7d</TranslationContext.Provider>;"),
    .line "\x7d;",
    .newline,
    .line "export const t = (...p: TranslationProps): string => \x7b",
    .line "    // eslint-disable-next-line react-hooks/rules-of-hooks",
    .line "    const \x7b state \x7d = useContext(TranslationContext);",
    .line "    return state.translation ? state.translation(...p) : ``;",
    .line "\x7d;" ]

/-- The function that gives the current language. -/
def getLanguage : Layout :=
  [ .line "export const getLanguage = (): string | undefined => \x7b",
    .line "    // eslint-disable-next-line react-hooks/rules-of-hooks",
    .line "    const \x7b state \x7d = useContext(TranslationContext);",
    .line "    return state.lang;",
    .line "\x7d;" ]

/-- The case of the language switch that loads the module of a language. -/
def languageCase (importRoot language : Text) : Layout :=
  .line ("case \"" ++ fileStem language ++ "\":") ::
    nested
      [ .line ("import(`" ++ importRoot ++ "/" ++ fileStem language ++
          ".ts`).then((module) => dispatch(\x7b type: ACTIONTYPE.CHANGE_LANG, payload: " ++
          "\x7b lang, translation: module.translate \x7d \x7d));"),
        .line "break;" ]

/-- The function that changes the language. -/
def useSet (importRoot : Text) (languages : List Text) : Layout :=
  .line "export const useSet = () => \x7b" ::
    nested
      (.line "const \x7b state, dispatch \x7d = useContext(TranslationContext);" ::
        .line "return (lang: string): void => \x7b" ::
        nested
          (.line "if (state.lang === lang) return;" ::
            .line "switch (lang) \x7b" ::
            nested (languages.flatMap (languageCase importRoot)) ++
            [.line "\x7d"]) ++
        [.line "\x7d;"]) ++
    [.line "\x7d;"]

/-- The provider module of a list of languages. -/
def layout (importRoot : Text) (languages : List Text) : Layout :=
  let importRoot := trimSlashes importRoot
  .line Catalog.generatedNotice ::
    languages.map (fun language => .line (importLine importRoot language)) ++
    [ .line "import \x7b useReducer, createContext, ReactNode, useContext \x7d from \"react\";",
      .newline,
      .line ("type TranslationProps = " ++ union languages ++ ";"),
      .newline ] ++
    stateAndReducer ++ [.newline] ++ useSet importRoot languages ++ [.newline] ++ getLanguage

/-- The text of the provider module of a list of languages. -/
def moduleText (importRoot : Text) (languages : List Text) : Text :=
  Layout.render (layout importRoot languages)

end Phrasebook.Provider
