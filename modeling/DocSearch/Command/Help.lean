import DocSearch.Command.Arguments

/-!
# Help texts

One screen for the whole program and one for each command, every line of them at most eighty
columns wide.
-/

namespace DocSearch.HelpScreen

def mainLines : List String :=
  ["usage: migrate [-h] --schema SCHEMA \x7bstatus,create,drop,recreate\x7d ...",
    "",
    "Elasticsearch 인덱스 마이그레이션 도구",
    "",
    "positional arguments:",
    "  \x7bstatus,create,drop,recreate\x7d",
    "                        명령어",
    "    status              인덱스 상태 확인",
    "    create              인덱스 생성",
    "    drop                인덱스 삭제",
    "    recreate            인덱스 재생성",
    "",
    "options:",
    "  -h, --help            show this help message and exit",
    "  --schema SCHEMA       \x7b이름: Index\x7d 매핑 경로 (\"모듈:속성\")",
    "",
    "환경변수:",
    "  ES_URL             Elasticsearch URL",
    "  ES_USERNAME        Basic Auth 사용자명",
    "  ES_PASSWORD        Basic Auth 비밀번호"]

def plainLines (command : String) : List String :=
  [s!"usage: migrate {command} [-h]",
    "",
    "options:",
    "  -h, --help  show this help message and exit"]

def confirmLines (command consent : String) : List String :=
  [s!"usage: migrate {command} [-h] [--confirm]",
    "",
    "options:",
    "  -h, --help  show this help message and exit",
    s!"  --confirm   {consent}"]

def lines : HelpScreen → List String
  | .main => mainLines
  | .status => plainLines "status"
  | .create => plainLines "create"
  | .drop => confirmLines "drop" "삭제 확인 (필수)"
  | .recreate => confirmLines "recreate" "재생성 확인 (필수)"

end DocSearch.HelpScreen
